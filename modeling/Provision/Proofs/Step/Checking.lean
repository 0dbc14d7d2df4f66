import Mathlib.Data.List.Basic
import Provision.Proofs.Json.Continuing
import Provision.Proofs.Json.Readable
import Provision.Proofs.Step.Settings
import Provision.Step.Check

/-!
# What a check finds

`Check.step_eq_ok`: a step of a known kind has been checked when its required settings and its mode have
texts, and the findings are the missing settings, the mode and the advice, in this order. Advice has texts of
its own, so a finding with such a text is advice (`Check.reports_iff`).

A step can be checked or compiled if the values of its settings have texts. `Settings.exists_read`: settings
can be read when each declared one can. `Json.exists_read_of_text`: a value with a text has every form.
-/

namespace Provision

variable {config : Members} {k : Kind} {key : String} {s : Step} {issues : List Issue} {room : Room}

/-- The value of a setting. An absent setting means the same as `null`. -/
def Members.value (config : Members) (key : String) : Json :=
  (config.get? key).getD .null

namespace Json

/-- No text is there, and the value is none of those with a text that happens to be empty. -/
def IsBlank (v : Json) : Prop :=
  v = .null ∨ v = .str ""

theorem text_eq_empty {room : Nat} {v : Json} {t : String} (h : v.text room = .ok t) : t = "" ↔ v.IsBlank := by
  have hofList : ∀ {cs : List Char}, String.ofList cs = "" → cs = [] := fun h => by
    have := congrArg String.toList h
    rwa [String.toList_ofList] at this
  have hscalar : ∀ {n : Nat} {x : Except TextFault String}, taking n room x = .ok t → x = .ok t :=
    fun h => (taking_eq_ok.1 h).2
  constructor
  · rintro rfl
    cases v with
    | null => exact .inl rfl
    | bool b =>
      have ht := hscalar h
      cases b <;> simp at ht
    | int n =>
      have ht := hscalar h
      simp only [Decimal.intText] at ht
      split at ht
      · have h0 := hofList (Except.ok.inj ht)
        exact absurd (List.append_eq_nil_iff.1 h0).2 Nat.toDigits_ne_nil
      · cases ht
    | float x =>
      have ht := hscalar h
      simp only [Decimal.floatText] at ht
      split at ht
      · have h0 := hofList (Except.ok.inj ht)
        exact absurd (List.append_eq_nil_iff.1 h0).2 (Decimal.unsigned_ne_nil _)
      · split at ht
        · simp [plainWords] at ht
        · split at ht <;> simp [plainWords] at ht
    | str t => exact .inr (congrArg Json.str (Except.ok.inj (hscalar h)))
    | arr items =>
      obtain ⟨ts, -, ht⟩ := Except.map_eq_ok.1 (hscalar h)
      simp at ht
    | obj members =>
      have h0 := hofList (objectText_eq_ok.1 (hscalar h)).2
      simp [sorted, compact] at h0
  · rintro (rfl | rfl) <;> exact (Except.ok.inj (hscalar h)).symm

/-- A value with a text can be read in every form: the items of a list are then nested less deep. -/
theorem exists_read_of_text (form : Form) {o : Option Json} {t : String} (h : (o.getD .null).text = .ok t) :
    ∃ x, form.read o = .ok x := by
  generalize hv : o.getD .null = v at h
  have hlist : (∃ ws, v.words = .ok ws) ∧ ∃ ls, v.lines = .ok ls := by
    cases v with
    | null | str => exact ⟨⟨_, rfl⟩, _, rfl⟩
    | arr items =>
      rw [text, textWithin, taking_eq_ok] at h
      obtain ⟨ts, hts, -⟩ := Except.map_eq_ok.1 h.2
      have hitems := textsWithin_mono (Nat.sub_le_sub_left (by decide : 1 ≤ listCalls) freeCalls) hts
      exact ⟨⟨_, Except.map_eq_ok.2 ⟨ts, hitems, rfl⟩⟩, ts, hitems⟩
    | bool | int | float | obj =>
      have hone := (Except.map_eq_ok (f := fun t => [t])).2 ⟨t, h, rfl⟩
      exact ⟨⟨_, hone⟩, _, hone⟩
  obtain ⟨⟨ws, hws⟩, ls, hls⟩ := hlist
  cases form <;> simp only [Form.read, hv, h, hws, hls] <;> exact ⟨_, rfl⟩

/-- The string is no switch word, or the value is `null`: such a value leaves a switch as it is by default. -/
def Undecided : Json → Prop
  | .null => True
  | .str s => Text.lower (trimmed s) ∉ trueWords ∧ Text.lower (trimmed s) ∉ falseWords
  | _ => False

theorem flag_of_undecided {v : Json} (h : v.Undecided) (default : Bool) : v.flag default = default := by
  cases v with
  | null => rfl
  | str s =>
    have htrue := mt List.contains_iff_mem.1 h.1
    have hfalse := mt List.contains_iff_mem.1 h.2
    simp only [flag, htrue, hfalse, Bool.false_eq_true, if_false]
  | bool | int | float | arr | obj => exact h.elim

theorem flag_eq_flag {v : Json} (h : ¬ v.Undecided) (default default' : Bool) :
    v.flag default = v.flag default' := by
  cases v with
  | null => exact absurd trivial h
  | str s =>
    simp only [flag]
    split
    · rfl
    · split
      · rfl
      · rename_i htrue hfalse
        exact absurd ⟨mt List.contains_iff_mem.2 htrue, mt List.contains_iff_mem.2 hfalse⟩ h
  | bool | int | float | arr | obj => rfl

end Json

/-! ### Settings -/

namespace Settings

theorem exists_read (h : ∀ d ∈ k.settings, ∃ v, d.2.read (config.get? d.1) = .ok v) :
    ∃ S, read k config = .ok S := by
  have hdeep : ¬ ∃ d ∈ k.settings, d.2.read (config.get? d.1) = .error .tooDeep := by
    rintro ⟨d, hd, hfault⟩
    obtain ⟨v, hv⟩ := h d hd
    cases hfault.symm.trans hv
  rw [read]
  dsimp only
  have hany := mt (any_isTooDeep fun _ => Json.freeCalls).1 hdeep
  rw [if_neg hany, defects_eq_nil h]
  exact ⟨_, rfl⟩

variable {S : Settings}

theorem text_of_read (h : read k config = .ok S) (hk : k.settings.lookup key = some .text) :
    (config.value key).text = .ok (S.text key) := by
  obtain ⟨v, hv, hr⟩ := lookup_of_read h hk
  obtain ⟨t, ht, rfl⟩ := Except.map_eq_ok.1 hr
  rw [Members.value, ht, text, hv]

theorem flag_of_read {default : Bool} (h : read k config = .ok S)
    (hk : k.settings.lookup key = some (.flag default)) :
    S.flag key = (config.value key).flag default := by
  obtain ⟨v, hv, hr⟩ := lookup_of_read h hk
  cases hr
  rw [flag, hv]
  rfl

end Settings

namespace Check

/-- A finding has the text. -/
def Reports (issues : List Issue) (message : String) : Prop :=
  ∃ i ∈ issues, i.message = message

def advices : List String :=
  [createsUnset, backupDisabled, cwdUnset]

theorem advice_subset (k : Kind) (config : Members) : advice k config ⊆ advices := by
  intro m hm
  cases k with
  | extractTarGz | extractZip | runCmd =>
    rw [advice] at hm
    split at hm
    · cases hm
    · simp [advices, List.mem_singleton.1 hm]
  | appendLines | deleteLines | replace =>
    simp only [advice] at hm
    split at hm
    · cases hm
    · split at hm
      · cases hm
      · simp [advices, List.mem_singleton.1 hm]
  | _ => cases hm

theorem exists_unset {keys : List String} :
    (∃ missing, unset config keys room = .ok missing) ↔
      ∀ key ∈ keys, ∃ t, (config.value key).text room.checks = .ok t := by
  induction keys with
  | nil => exact ⟨fun _ => nofun, fun _ => ⟨[], rfl⟩⟩
  | cons key keys ih =>
    rw [List.forall_mem_cons, ← ih]
    constructor
    · rintro ⟨missing, h⟩
      obtain ⟨b, hb, h⟩ := Except.bind_eq_ok.1 h
      obtain ⟨rest, hrest, -⟩ := Except.bind_eq_ok.1 h
      obtain ⟨t, ht, -⟩ := Except.map_eq_ok.1 hb
      exact ⟨⟨t, ht⟩, rest, hrest⟩
    · rintro ⟨⟨t, ht⟩, rest, hrest⟩
      have hb : isUnset config key room = .ok (t == "") := Except.map_eq_ok.2 ⟨t, ht, rfl⟩
      exact ⟨_, Except.bind_eq_ok.2 ⟨_, hb, Except.bind_eq_ok.2 ⟨rest, hrest, rfl⟩⟩⟩

theorem mem_unset {keys missing : List String} (h : unset config keys room = .ok missing) :
    key ∈ missing ↔ key ∈ keys ∧ (config.value key).IsBlank := by
  induction keys generalizing missing with
  | nil => cases h; simp
  | cons k keys ih =>
    obtain ⟨b, hb, h⟩ := Except.bind_eq_ok.1 h
    obtain ⟨rest, hrest, h⟩ := Except.bind_eq_ok.1 h
    obtain ⟨t, ht, rfl⟩ := Except.map_eq_ok.1 hb
    have hblank := Json.text_eq_empty ht
    clear hb
    cases h
    have hmissing : key ∈ (if (t == "") = true then k :: rest else rest) ↔ (key = k ∧ t = "") ∨ key ∈ rest := by
      by_cases hempty : t = "" <;> simp [hempty]
    rw [hmissing, ih hrest, hblank, List.mem_cons]
    constructor
    · rintro (⟨rfl, ht'⟩ | ⟨hmem, hb⟩)
      exacts [⟨.inl rfl, ht'⟩, ⟨.inr hmem, hb⟩]
    · rintro ⟨rfl | hmem, hb⟩
      exacts [.inl ⟨rfl, hb⟩, .inr ⟨hmem, hb⟩]

theorem exists_hasBadMode :
    (∃ bad, hasBadMode k config room = .ok bad) ↔
      (k.modes.isEmpty = false → ∃ t, (config.value "mode").text room.checks = .ok t) := by
  rw [hasBadMode]
  cases k.modes.isEmpty with
  | true => simp
  | false =>
    simp only [Bool.false_eq_true, if_false, Except.map_eq_ok, forall_const]
    exact ⟨fun ⟨_, t, ht, _⟩ => ⟨t, ht⟩, fun ⟨t, ht⟩ => ⟨_, t, ht, rfl⟩⟩

theorem step_eq_ok (hk : s.kind? = some k) :
    step s room = .ok issues ↔ ∃ missing bad, unset s.config k.required room = .ok missing ∧
      hasBadMode k s.config room = .ok bad ∧
      issues = missing.map (⟨.error, s.id, required ·⟩) ++
        (if bad then [⟨.error, s.id, modeMessage k⟩] else []) ++ (advice k s.config).map (⟨.warn, s.id, ·⟩) := by
  simp only [step, hk, Except.bind_eq_ok]
  constructor
  · rintro ⟨missing, hm, bad, hb, h⟩
    exact ⟨missing, bad, hm, hb, (Except.ok.inj h).symm⟩
  · rintro ⟨missing, bad, hm, hb, rfl⟩
    exact ⟨missing, hm, bad, hb, rfl⟩

/-- A step of a known kind can be checked exactly if its required settings and its mode have texts. -/
theorem exists_step (hk : s.kind? = some k) :
    (∃ issues, step s room = .ok issues) ↔
      (∀ key ∈ k.required, ∃ t, (s.config.value key).text room.checks = .ok t) ∧
        (k.modes.isEmpty = false → ∃ t, (s.config.value "mode").text room.checks = .ok t) := by
  simp only [step_eq_ok hk]
  rw [← exists_unset, ← exists_hasBadMode]
  exact ⟨fun ⟨_, missing, bad, hm, hb, _⟩ => ⟨⟨missing, hm⟩, bad, hb⟩,
    fun ⟨⟨missing, hm⟩, bad, hb⟩ => ⟨_, missing, bad, hm, hb, rfl⟩⟩

theorem reports_iff {message : String} (hk : s.kind? = some k) (h : step s room = .ok issues)
    (hm : message ∈ advices) : Reports issues message ↔ message ∈ advice k s.config := by
  obtain ⟨missing, bad, hmissing, -, rfl⟩ := (step_eq_ok hk).1 h
  have hrequired : ∀ key ∈ k.required, required key ∉ advices := by cases k <;> decide
  have hmode : modeMessage k ∉ advices := by cases k <;> decide
  constructor
  · rintro ⟨i, hi, rfl⟩
    rcases List.mem_append.1 hi with hi | hi
    · rcases List.mem_append.1 hi with hi | hi
      · obtain ⟨key, hkey, rfl⟩ := List.mem_map.1 hi
        exact absurd hm (hrequired key ((mem_unset hmissing).1 hkey).1)
      · split at hi
        · obtain rfl := List.mem_singleton.1 hi
          exact absurd hm hmode
        · cases hi
    · obtain ⟨m, ha, rfl⟩ := List.mem_map.1 hi
      exact ha
  · intro ha
    exact ⟨_, List.mem_append_right _ (List.mem_map.2 ⟨message, ha, rfl⟩), rfl⟩

end Check

end Provision
