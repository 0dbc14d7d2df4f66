import Provision.Proofs.Script.Fallbacks
import Provision.Proofs.Script.Filters
import Provision.Proofs.Shell.Branches

/-!
# Blocks in blocks

The block that unpacks an archive stands behind the `else` of a choice if the step names what the archive creates, and
the blocks of a service for the two init systems are the parts of a choice if the target decides between them
(`Step.Wraps`). They are the blocks of steps of their own, with indented lines. For the shell, the commands in the part
of the choice are just those of the block on its own, whatever the settings hold: blanks are added between commands
only, and never in a value that has line breaks (`wraps_encloses`). A `$` in a value is read as a character of it.
-/

namespace Provision

open Shell Shell.Piece

variable {s b : Step} {archive : Archive} {src dest creates name sysvSrc systemdSrc : String} {part : Bool}

def Archive.kind : Archive → Kind
  | tarGz => .extractTarGz
  | zip => .extractZip

def InitSystem.kind : InitSystem → Kind
  | sysv => .serviceSysv
  | systemd => .serviceSystemd

/-- Whether a step also starts its service. -/
def Step.starts (s : Step) : Bool :=
  (s.config.value "start").flag true

/-- A step does what another does, but in one part of a choice: behind the `then` (`true`), or behind the `else`. -/
inductive Step.Wraps : Step → Bool → Step → Prop
  /-- An archive is not unpacked again if there is already what it creates. -/
  | extract {s b : Step} {archive : Archive} {src dest creates : String}
    (hs : s.Has archive.kind [("src", src), ("dest", dest), ("creates", creates)]) (hcreates : creates ≠ "")
    (hb : b.Has archive.kind [("src", src), ("dest", dest), ("creates", "")]) : Wraps s false b
  | systemd {s b : Step} {name sysvSrc systemdSrc : String}
    (hs : s.Has .autoService [("name", name), ("sysv_src", sysvSrc), ("systemd_src", systemdSrc)])
    (hb : b.Has .serviceSystemd [("src", systemdSrc), ("name", name)]) (hstart : s.starts = b.starts) : Wraps s true b
  | sysv {s b : Step} {name sysvSrc systemdSrc : String}
    (hs : s.Has .autoService [("name", name), ("sysv_src", sysvSrc), ("systemd_src", systemdSrc)])
    (hb : b.Has .serviceSysv [("src", sysvSrc), ("name", name)]) (hstart : s.starts = b.starts) : Wraps s false b

namespace Fragment

theorem ofStep_extract (h : s.Has archive.kind [("src", src), ("dest", dest), ("creates", creates)]) :
    ofStep s = .ok ⟨s.type, extractLines archive src dest creates, archive.kind.commands⟩ := by
  obtain ⟨S, hS⟩ := h.exists_read (by cases archive <;> simp [Archive.kind, Kind.settings])
  have hsrc : S.text "src" = src := h.text_eq hS (by simp) (by cases archive <;> rfl)
  have hdest : S.text "dest" = dest := h.text_eq hS (by simp) (by cases archive <;> rfl)
  have hcreates : S.text "creates" = creates := h.text_eq hS (by simp) (by cases archive <;> rfl)
  have haction : Action.ofSettings S archive.kind = .extract archive src dest creates := by
    cases archive <;> simp only [Archive.kind, Action.ofSettings, hsrc, hdest, hcreates]
  rw [h.ofStep hS, haction]
  rfl

theorem ofStep_service (init : InitSystem) (h : s.Has init.kind [("src", src), ("name", name)]) :
    ofStep s = .ok ⟨s.type, ofAction (.service init src name s.starts), init.kind.commands⟩ := by
  obtain ⟨S, hS⟩ := h.exists_read (by cases init <;> simp [InitSystem.kind, Kind.settings])
  have hsrc : S.text "src" = src := h.text_eq hS (by simp) (by cases init <;> rfl)
  have hname : S.text "name" = name := h.text_eq hS (by simp) (by cases init <;> rfl)
  have hstart : S.flag "start" = s.starts := Settings.flag_of_read hS (by cases init <;> rfl)
  have haction : Action.ofSettings S init.kind = .service init src name s.starts := by
    cases init <;> simp only [InitSystem.kind, Action.ofSettings, hsrc, hname, hstart]
  rw [h.ofStep hS, haction]

theorem ofStep_auto (h : s.Has .autoService [("name", name), ("sysv_src", sysvSrc), ("systemd_src", systemdSrc)]) :
    ofStep s = .ok ⟨s.type, autoServiceLines name sysvSrc systemdSrc s.starts, Kind.autoService.commands⟩ := by
  obtain ⟨S, hS⟩ := h.exists_read (by simp [Kind.settings])
  have hname : S.text "name" = name := h.text_eq hS (by simp) rfl
  have hsysv : S.text "sysv_src" = sysvSrc := h.text_eq hS (by simp) rfl
  have hsystemd : S.text "systemd_src" = systemdSrc := h.text_eq hS (by simp) rfl
  have hstart : S.flag "start" = s.starts := Settings.flag_of_read hS rfl
  rw [h.ofStep hS, Action.ofSettings, hname, hsysv, hsystemd, hstart]
  rfl

theorem isBlock_service (init : InitSystem) (src name : String) (start : Bool) :
    IsBlock (ofAction (.service init src name start)) := by
  cases init with
  | sysv => exact ⟨List.cons_ne_nil _ _, _, reads_sysv src name start⟩
  | systemd => exact ⟨List.cons_ne_nil _ _, _, reads_systemd src name start⟩

theorem isBlock_extract (archive : Archive) (src dest : String) : IsBlock (extractLines archive src dest "") := by
  have hmkdir : Line.Reads [code "mkdir -p ", double dest] _ := .run rfl rfl rfl
  have hunpack : (unpack archive src dest).Reads (.run (unpack archive src dest).words) := by
    cases archive <;> exact .run rfl rfl rfl
  exact ⟨List.cons_ne_nil _ _, .runs [_, _] .done, .cons hmkdir (.cons hunpack .nil)⟩

theorem isBlock_skip (message : String) : IsBlock [[code "  echo ", single message]] :=
  ⟨List.cons_ne_nil _ _, .run _ .done, .cons (.run rfl rfl rfl) .nil⟩

/-- The test by which an archive is not unpacked again. -/
def existsTest (path : String) : Command :=
  [.word ⟨['['], true⟩, keyword "-e", .word ⟨path.toList, path.toList.any (· = '$')⟩, keyword "]"]

theorem sequence?_ifExists (path : String) :
    sequence? (Line.text [code "if [ -e ", double path, code " ]; then"]) =
      some [keyword "if" :: existsTest path, [keyword "then"]] :=
  sequence?_line rfl

theorem sequence?_ifSystemd :
    sequence? (Line.text [code "if command -v systemctl >/dev/null 2>&1; then"]) =
      some [keyword "if" :: [keyword "command", keyword "-v", keyword "systemctl", .operator '>', keyword "/dev/null",
        keyword "2", .operator '>', .operator '&', keyword "1"], [keyword "then"]] :=
  sequence?_line rfl

theorem encloses_extract (archive : Archive) (src dest : String) (hcreates : creates ≠ "") :
    ∃ ch, Encloses (Lines.text (extractLines archive src dest creates))
      (Lines.text (extractLines archive src dest "")) ch false := by
  have hskip := isBlock_skip ("skip " ++ archiveType archive ++ " because creates exists: " ++ creates)
  have hencloses := Encloses.of_fails (sequence?_ifExists creates) hskip (isBlock_extract archive src dest)
  rw [extractLines, if_neg hcreates]
  exact ⟨_, hencloses⟩

theorem encloses_systemd (name sysvSrc systemdSrc : String) (start : Bool) :
    ∃ ch, Encloses (Lines.text (autoServiceLines name sysvSrc systemdSrc start))
      (Lines.text (ofAction (.service .systemd systemdSrc name start))) ch true := by
  exact ⟨_, .of_holds sequence?_ifSystemd (isBlock_service .systemd systemdSrc name start)
    (isBlock_service .sysv sysvSrc name start).indented⟩

theorem encloses_sysv (name sysvSrc systemdSrc : String) (start : Bool) :
    ∃ ch, Encloses (Lines.text (autoServiceLines name sysvSrc systemdSrc start))
      (Lines.text (ofAction (.service .sysv sysvSrc name start))) ch false := by
  exact ⟨_, .of_fails sequence?_ifSystemd (isBlock_service .systemd systemdSrc name start).indented
    (isBlock_service .sysv sysvSrc name start)⟩

end Fragment

open Fragment

/-- Where a step does what another does in a part of a choice, the commands in this part are just those of the other
step's own block. The text of the part is that of the block, with blanks in front of lines, none of which begins in a
quoted value. -/
theorem wraps_encloses (h : s.Wraps part b) :
    ∃ f g ch, ofStep s = .ok f ∧ ofStep b = .ok g ∧ Encloses f.text g.text ch part := by
  cases h with
  | @extract _ archive src dest creates hs hcreates hb =>
    obtain ⟨ch, hencloses⟩ := encloses_extract archive src dest hcreates
    exact ⟨_, _, ch, ofStep_extract hs, ofStep_extract hb, hencloses⟩
  | @systemd _ name sysvSrc systemdSrc hs hb hstart =>
    obtain ⟨ch, hencloses⟩ := encloses_systemd name sysvSrc systemdSrc b.starts
    have hauto := ofStep_auto hs
    rw [hstart] at hauto
    exact ⟨_, _, ch, hauto, ofStep_service .systemd hb, hencloses⟩
  | @sysv _ name sysvSrc systemdSrc hs hb hstart =>
    obtain ⟨ch, hencloses⟩ := encloses_sysv name sysvSrc systemdSrc b.starts
    have hauto := ofStep_auto hs
    rw [hstart] at hauto
    exact ⟨_, _, ch, hauto, ofStep_service .sysv hb, hencloses⟩

/-- A step that unpacks an archive. There are quotes and line breaks in its settings. -/
def archiveStep (guard : Members) : Step :=
  { type := "extract_zip", config := guard ++ [("src", .str "a'\n\"b.zip"), ("dest", .str "/opt/\n  c'd")] }

/-- A step for a service that is not started. There is a line break in its name. -/
def installStep (type : String) (sources : Members) : Step :=
  { type, config := sources ++ [("name", .str "app\n$x"), ("start", .bool false)] }

def guardedStep : Step :=
  archiveStep [("creates", .str "/opt/e\nf")]

def autoStep : Step :=
  installStep "auto_service" [("sysv_src", .str "a\nb"), ("systemd_src", .str "'c\n\nd")]

def systemdStep : Step :=
  installStep "service_systemd" [("src", .str "'c\n\nd")]

theorem wraps_encloses_lines :
    guardedStep.Wraps false (archiveStep []) ∧ autoStep.Wraps true systemdStep ∧
      (∃ f g ch, ofStep guardedStep = .ok f ∧ ofStep (archiveStep []) = .ok g ∧ Encloses f.text g.text ch false) ∧
      ∃ f g ch, ofStep autoStep = .ok f ∧ ofStep systemdStep = .ok g ∧ Encloses f.text g.text ch true := by
  have hguarded : guardedStep.Has (Archive.kind .zip)
      [("src", "a'\n\"b.zip"), ("dest", "/opt/\n  c'd"), ("creates", "/opt/e\nf")] :=
    ⟨rfl, by simp only [List.forall_mem_cons]; exact ⟨rfl, rfl, rfl, by simp⟩⟩
  have hplain : (archiveStep []).Has (Archive.kind .zip)
      [("src", "a'\n\"b.zip"), ("dest", "/opt/\n  c'd"), ("creates", "")] :=
    ⟨rfl, by simp only [List.forall_mem_cons]; exact ⟨rfl, rfl, rfl, by simp⟩⟩
  have hservices : autoStep.Has .autoService
      [("name", "app\n$x"), ("sysv_src", "a\nb"), ("systemd_src", "'c\n\nd")] :=
    ⟨rfl, by simp only [List.forall_mem_cons]; exact ⟨rfl, rfl, rfl, by simp⟩⟩
  have hservice : systemdStep.Has .serviceSystemd [("src", "'c\n\nd"), ("name", "app\n$x")] :=
    ⟨rfl, by simp only [List.forall_mem_cons]; exact ⟨rfl, rfl, by simp⟩⟩
  have hextract : guardedStep.Wraps false (archiveStep []) := .extract hguarded (by decide) hplain
  have hauto : autoStep.Wraps true systemdStep := .systemd hservices hservice rfl
  exact ⟨hextract, hauto, wraps_encloses hextract, wraps_encloses hauto⟩

end Provision
