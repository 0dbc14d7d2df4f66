import Provision.Proofs.Shell.Lexing
import Provision.Script.Installer

/-!
# What decides the shell code of a step

`Action.facts` is all of an action that shows outside of quotes: which branch its block takes and how
many packages it names. `block_sameOutside`: the blocks of two actions of one kind with the same facts
leave the same when their quoted segments are deleted. Blocks that hold a command or lines as they are
given (`Kind.isVerbatim`) are left out.
-/

namespace Provision

open Shell

/-- The facts about an action that choose between branches of its block. -/
structure Facts where
  overwrites : Bool := false
  hasMode : Bool := false
  hasCreates : Bool := false
  packages : Nat := 0
  upgrades : Bool := false
  ignoresDependencies : Bool := false
  keepsBackup : Bool := false
  isRegex : Bool := false
  starts : Bool := false
  deriving DecidableEq, Repr

def Action.facts : Action → Facts
  | .mkdir _ | .chmod _ _ | .chown _ _ _ | .appendLines _ _ _ _ | .runCmd _ _ => {}
  | .copy _ _ overwrite mode => { overwrites := overwrite, hasMode := mode ≠ "" }
  | .extract _ _ _ creates => { hasCreates := creates ≠ "" }
  | .rpmInstall rpms mode nodeps =>
    { packages := rpms.length, upgrades := Text.lower mode = "upgrade",
      ignoresDependencies := nodeps }
  | .deleteLines _ _ mode backup | .replace _ _ _ mode backup =>
    { isRegex := Text.lower mode = "regex", keepsBackup := backup }
  | .service _ _ _ start | .autoService _ _ _ start => { starts := start }

/-- Kinds whose block holds text that is given as shell code or as the content of a file. -/
def Kind.isVerbatim (k : Kind) : Bool :=
  k = .runCmd || k = .appendLines

/-! ### Lines -/

/-- A line begins with code, so it is not empty. -/
def Shell.Line.isVisible : Line → Bool
  | .code t :: _ => t ≠ ""
  | _ => false

theorem Shell.Line.indented_of_visible {l : Line} (h : l.isVisible) :
    l.indented = .code "  " :: l := by
  unfold isVisible at h
  split at h
  · rename_i t ps
    have ht : t ≠ "" := of_decide_eq_true h
    have hl : Line.text (.code t :: ps) ≠ "" := by
      simp [Line.text, Piece.text, String.join_cons, ht]
    rw [Line.indented, if_neg hl]
  · cases h

/-- Two lines that are closed and leave the same. -/
def SameLine (l l' : Line) : Prop :=
  l.isClosed = true ∧ l'.isClosed = true ∧ l.bare = l'.bare

abbrev SameLines : List Line → List Line → Prop := List.Forall₂ SameLine

theorem SameLine.sameOutside {l l' : Line} (h : SameLine l l') : SameOutside l.text l'.text :=
  .line h.1 h.2.1 h.2.2

theorem SameLine.append {l l' k k' : Line} (h : SameLine l l') (h' : SameLine k k') :
    SameLine (l ++ k) (l' ++ k') := by
  obtain ⟨h1, h2, h3⟩ := h
  obtain ⟨k1, k2, k3⟩ := h'
  refine ⟨?_, ?_, ?_⟩
  · rw [Line.isClosed, List.all_append, Bool.and_eq_true]; exact ⟨h1, k1⟩
  · rw [Line.isClosed, List.all_append, Bool.and_eq_true]; exact ⟨h2, k2⟩
  · rw [Line.bare, Line.bare, List.flatMap_append, List.flatMap_append]; exact congrArg₂ _ h3 k3

theorem SameLine.code {t : String} {l l' : Line} (ht : (Piece.code t).isClosed = true)
    (h : SameLine l l') : SameLine (.code t :: l) (.code t :: l') :=
  have hc : Line.isClosed [.code t] = true := by simpa [Line.isClosed] using ht
  SameLine.append (show SameLine [.code t] [.code t] from ⟨hc, hc, rfl⟩) h

theorem SameLine.double {v v' : String} {l l' : Line} (h : SameLine l l') :
    SameLine (.double v :: l) (.double v' :: l') :=
  SameLine.append (show SameLine [.double v] [.double v'] from ⟨rfl, rfl, rfl⟩) h

theorem SameLine.single {v v' : String} {l l' : Line} (h : SameLine l l') :
    SameLine (.single v :: l) (.single v' :: l') :=
  SameLine.append (show SameLine [.single v] [.single v'] from ⟨rfl, rfl, rfl⟩) h

theorem SameLine.nil : SameLine [] [] := ⟨rfl, rfl, rfl⟩

theorem SameLines.indented {ls ls' : List Line} (h : SameLines ls ls')
    (hv : ls.all Line.isVisible) (hv' : ls'.all Line.isVisible) :
    SameLines (ls.map Line.indented) (ls'.map Line.indented) := by
  induction h with
  | nil => exact .nil
  | @cons l l' ls ls' hl _ ih =>
    rw [List.all_cons, Bool.and_eq_true] at hv hv'
    rw [List.map_cons, List.map_cons, Line.indented_of_visible hv.1, Line.indented_of_visible hv'.1]
    exact .cons (.code (by decide) hl) (ih hv.2 hv'.2)

/-! ### Blocks

A block of fixed shape corresponds line by line: each piece of its code is closed, and the values in
it leave nothing. -/

namespace Fragment

theorem sameLine_words {ws ws' : List String} (h : ws.length = ws'.length) :
    SameLine ((ws.map .double).intersperse (.code " ")) ((ws'.map .double).intersperse (.code " ")) := by
  match ws, ws', h with
  | [], [], _ => exact .nil
  | [_], [_], _ => exact .double .nil
  | w :: x :: xs, w' :: x' :: xs', h =>
    have ih := @sameLine_words (x :: xs) (x' :: xs') (by simpa using h)
    exact .double (.code (by decide) ih)

variable {src src' dest dest' name name' mode mode' : String}

theorem sameLines_copy (overwrite : Bool) (h : mode = "" ↔ mode' = "") :
    SameLines (copyLines src dest overwrite mode) (copyLines src' dest' overwrite mode') := by
  unfold copyLines
  refine List.rel_append ?_ ?_
  · cases overwrite <;> repeat' constructor
  · by_cases hm : mode = ""
    · simp [hm, h.1 hm]
    · rw [if_neg hm, if_neg (mt h.2 hm)]
      repeat' constructor

theorem sameLines_extract (archive : Archive) {creates creates' : String}
    (h : creates = "" ↔ creates' = "") :
    SameLines (extractLines archive src dest creates) (extractLines archive src' dest' creates') := by
  have body : SameLines [[.code "mkdir -p ", .double dest], unpack archive src dest]
      [[.code "mkdir -p ", .double dest'], unpack archive src' dest'] := by
    cases archive <;> repeat' constructor
  unfold extractLines
  by_cases hc : creates = ""
  · rw [if_pos hc, if_pos (h.1 hc)]
    exact body
  · rw [if_neg hc, if_neg (mt h.2 hc)]
    refine List.rel_append (List.rel_append ?_ (body.indented ?_ ?_)) ?_
    · cases archive <;> repeat' constructor
    · cases archive <;> rfl
    · cases archive <;> rfl
    · repeat' constructor

theorem sameLines_rpm {rpms rpms' : List String} (nodeps : Bool) (hn : rpms.length = rpms'.length)
    (hm : Text.lower mode = "upgrade" ↔ Text.lower mode' = "upgrade") :
    SameLines (rpmLines rpms mode nodeps) (rpmLines rpms' mode' nodeps) := by
  have he : rpms.isEmpty = rpms'.isEmpty := by
    rw [Bool.eq_iff_iff, List.isEmpty_iff_length_eq_zero, List.isEmpty_iff_length_eq_zero, hn]
  unfold rpmLines
  rw [he]
  by_cases h0 : rpms'.isEmpty = true
  · rw [if_pos h0, if_pos h0]
    repeat' constructor
  · rw [if_neg h0, if_neg h0]
    refine .cons ?_ (.cons ?_ ?_)
    · exact .append (.code (by decide) (sameLine_words hn)) (.code (by decide) .nil)
    · by_cases hu : Text.lower mode = "upgrade"
      · rw [if_pos hu, if_pos (hm.1 hu)]
        cases nodeps <;> repeat' constructor
      · rw [if_neg hu, if_neg (mt hm.2 hu)]
        cases nodeps <;> repeat' constructor
    · repeat' constructor

theorem sameLines_backup (enabled : Bool) : SameLines (backup enabled) (backup enabled) := by
  cases enabled <;> repeat' constructor

theorem sameLines_rewriteTarget {filter filter' : Line} (h : SameLine filter filter') :
    SameLines (rewriteTarget filter) (rewriteTarget filter') := by
  refine .cons (by repeat' constructor) (.cons (h.append ?_) ?_) <;> repeat' constructor

theorem sameLine_deleteFilter {pattern pattern' : String}
    (hm : Text.lower mode = "regex" ↔ Text.lower mode' = "regex") :
    SameLine (deleteFilter pattern mode) (deleteFilter pattern' mode') := by
  unfold deleteFilter
  by_cases hr : Text.lower mode = "regex"
  · rw [if_pos hr, if_pos (hm.1 hr)]
    repeat' constructor
  · rw [if_neg hr, if_neg (mt hm.2 hr)]
    repeat' constructor

theorem sameLine_replaceFilter {pattern pattern' replacement replacement' : String}
    (hm : Text.lower mode = "regex" ↔ Text.lower mode' = "regex") :
    SameLine (replaceFilter pattern replacement mode) (replaceFilter pattern' replacement' mode') := by
  unfold replaceFilter
  by_cases hr : Text.lower mode = "regex"
  · rw [if_pos hr, if_pos (hm.1 hr)]
    exact .code (by decide) (.single (.code (by decide) .nil))
  · rw [if_neg hr, if_neg (mt hm.2 hr)]
    exact .code (by decide) (.single (.code (by decide) .nil))

theorem sameLines_sysv (start : Bool) :
    SameLines (sysvService src name start) (sysvService src' name' start) := by
  cases start <;> repeat' constructor

theorem sameLines_systemd (start : Bool) :
    SameLines (systemdService src name start) (systemdService src' name' start) := by
  cases start <;> repeat' constructor

theorem sameLines_autoService {sysv sysv' systemd systemd' : String} (start : Bool) :
    SameLines (autoServiceLines name sysv systemd start)
      (autoServiceLines name' sysv' systemd' start) := by
  unfold autoServiceLines
  refine List.rel_append (List.rel_append (List.rel_append (List.rel_append ?_
    ((sameLines_systemd start).indented ?_ ?_)) ?_) ((sameLines_sysv start).indented ?_ ?_)) ?_
  · repeat' constructor
  · cases start <;> rfl
  · cases start <;> rfl
  · repeat' constructor
  · cases start <;> rfl
  · cases start <;> rfl
  · repeat' constructor

theorem sameLines_unknown (type type' : String) : SameLines (unknown type) (unknown type') := by
  repeat' constructor

theorem sameLines_ofAction {k : Kind} (hk : k.isVerbatim = false) {s s' : Settings}
    (h : (Action.ofSettings s k).facts = (Action.ofSettings s' k).facts) :
    SameLines (ofAction (Action.ofSettings s k)) (ofAction (Action.ofSettings s' k)) := by
  cases k with
  | mkdir => repeat' constructor
  | chmod => repeat' constructor
  | chown => repeat' constructor
  | copy =>
    simp only [Action.ofSettings, Action.facts, Facts.mk.injEq, decide_eq_decide] at h
    rw [Action.ofSettings, Action.ofSettings, h.1]
    exact sameLines_copy _ (not_iff_not.1 h.2.1)
  | extractTarGz =>
    simp only [Action.ofSettings, Action.facts, Facts.mk.injEq, decide_eq_decide] at h
    exact sameLines_extract _ (not_iff_not.1 h.2.2.1)
  | extractZip =>
    simp only [Action.ofSettings, Action.facts, Facts.mk.injEq, decide_eq_decide] at h
    exact sameLines_extract _ (not_iff_not.1 h.2.2.1)
  | rpmInstall =>
    simp only [Action.ofSettings, Action.facts, Facts.mk.injEq, decide_eq_decide] at h
    obtain ⟨-, -, -, hn, hu, hd, -⟩ := h
    rw [Action.ofSettings, Action.ofSettings, hd]
    exact sameLines_rpm _ hn hu
  | deleteLines =>
    simp only [Action.ofSettings, Action.facts, Facts.mk.injEq, decide_eq_decide] at h
    obtain ⟨-, -, -, -, -, -, hb, hr, -⟩ := h
    rw [Action.ofSettings, Action.ofSettings, hb]
    exact .cons (.code (by decide) (.double .nil))
      (List.rel_append (sameLines_backup _) (sameLines_rewriteTarget (sameLine_deleteFilter hr)))
  | replace =>
    simp only [Action.ofSettings, Action.facts, Facts.mk.injEq, decide_eq_decide] at h
    obtain ⟨-, -, -, -, -, -, hb, hr, -⟩ := h
    rw [Action.ofSettings, Action.ofSettings, hb]
    exact .cons (.code (by decide) (.double .nil))
      (List.rel_append (sameLines_backup _) (sameLines_rewriteTarget (sameLine_replaceFilter hr)))
  | serviceSysv =>
    simp only [Action.ofSettings, Action.facts, Facts.mk.injEq] at h
    rw [Action.ofSettings, Action.ofSettings, h.2.2.2.2.2.2.2.2]
    exact sameLines_sysv _
  | serviceSystemd =>
    simp only [Action.ofSettings, Action.facts, Facts.mk.injEq] at h
    rw [Action.ofSettings, Action.ofSettings, h.2.2.2.2.2.2.2.2]
    exact sameLines_systemd _
  | autoService =>
    simp only [Action.ofSettings, Action.facts, Facts.mk.injEq] at h
    rw [Action.ofSettings, Action.ofSettings, h.2.2.2.2.2.2.2.2]
    exact sameLines_autoService _
  | appendLines => cases hk
  | runCmd => cases hk

end Fragment

end Provision
