import Provision.Proofs.Json.Shape
import Provision.Proofs.Outcome
import Provision.Step.Setting

/-!
# Values up to the order of keys

Values are alike when they differ at most in the order of the keys of objects, at any depth. Alike values
are the same once their keys are sorted, and nest equally deep (`SameMeasures`). So they mean the same
wherever a text, a switch, a list of words or a list of lines is wanted (`Alike.sameMeaning`).
-/

namespace Provision.Json

mutual

/-- The values differ at most in the order of the keys of objects. -/
def Alike : Json → Json → Prop
  | .arr items, w => ∃ items', w = .arr items' ∧ AlikeItems items items'
  | .obj members, w => ∃ members' reordered, w = .obj members' ∧ reordered.Perm members' ∧
      AlikeMembers members reordered
  | v, w => v = w

/-- The items are alike in their order. -/
def AlikeItems : List Json → List Json → Prop
  | [], ws => ws = []
  | v :: vs, ws => ∃ w ws', ws = w :: ws' ∧ Alike v w ∧ AlikeItems vs ws'

/-- The members have the same keys in the same order, and alike values. -/
def AlikeMembers : List (String × Json) → List (String × Json) → Prop
  | [], ns => ns = []
  | (k, v) :: ms, ns => ∃ w ns', ns = (k, w) :: ns' ∧ Alike v w ∧ AlikeMembers ms ns'

end

mutual

theorem Alike.refl : ∀ v : Json, v.Alike v
  | .arr items => ⟨items, rfl, alikeItems_refl items⟩
  | .obj members => ⟨members, members, rfl, .refl _, alikeMembers_refl members⟩
  | .null | .bool _ | .int _ | .float _ | .str _ => rfl

theorem alikeItems_refl : ∀ vs : List Json, AlikeItems vs vs
  | [] => rfl
  | v :: vs => ⟨v, vs, rfl, Alike.refl v, alikeItems_refl vs⟩

theorem alikeMembers_refl : ∀ ms : List (String × Json), AlikeMembers ms ms
  | [] => rfl
  | (_, v) :: ms => ⟨v, ms, rfl, Alike.refl v, alikeMembers_refl ms⟩

end

section

variable {ms ns : List (String × Json)}

theorem sortedMembers_eq_map (ms : List (String × Json)) :
    sortedMembers ms = ms.map fun (k, v) => (k, v.sorted) := by
  induction ms with
  | nil => rfl
  | cons m ms ih =>
    obtain ⟨k, v⟩ := m
    rw [sortedMembers, ih, List.map_cons]

theorem sortByKey_sortedMembers_of_perm (h : ms.Perm ns) (hk : IsKeyed ms) :
    sortByKey (sortedMembers ms) = sortByKey (sortedMembers ns) := by
  rw [sortedMembers_eq_map, sortedMembers_eq_map]
  exact sortByKey_eq_of_perm (h.map _) ((isKeyed_map sorted).2 hk)

theorem levelsOfMembers_of_perm (leaf : Nat) (h : ms.Perm ns) :
    levelsOfMembers leaf ms = levelsOfMembers leaf ns :=
  Nat.le_antisymm
    (levelsOfMembers_le.2 fun m hm => levelsOfMembers_le.1 (Nat.le_refl _) m (h.mem_iff.1 hm))
    (levelsOfMembers_le.2 fun m hm => levelsOfMembers_le.1 (Nat.le_refl _) m (h.mem_iff.2 hm))

theorem writableMembers_of_perm (h : ms.Perm ns) : writableMembers ms = writableMembers ns := by
  rw [Bool.eq_iff_iff, writableMembers_iff, writableMembers_iff]
  exact ⟨fun hw m hm => hw m (h.mem_iff.2 hm), fun hw m hm => hw m (h.mem_iff.1 hm)⟩

end

/-- The values are the same with their keys sorted, nest equally deep and can be written alike. -/
structure SameMeasures (v w : Json) : Prop where
  sorted : v.sorted = w.sorted
  levels : ∀ leaf, v.levels leaf = w.levels leaf
  writable : v.writable = w.writable

mutual

theorem Alike.sameMeasures : ∀ {v w : Json}, v.WellKeyed → v.Alike w → SameMeasures v w
  | .arr items, _, hk, ⟨items', rfl, h⟩ => by
    obtain ⟨hsorted, hlevels, hwritable⟩ := AlikeItems.same hk h
    exact ⟨congrArg arr hsorted, fun leaf => congrArg (· + 1) (hlevels leaf), hwritable⟩
  | .obj members, _, ⟨hk, hks⟩, ⟨members', reordered, rfl, hperm, h⟩ => by
    obtain ⟨hkeys, hsorted, hlevels, hwritable⟩ := AlikeMembers.same hks h
    have hk' : IsKeyed reordered := by rwa [IsKeyed, hkeys]
    refine ⟨congrArg obj ?_, fun leaf => congrArg (· + 1) ?_, ?_⟩
    · rw [hsorted, sortByKey_sortedMembers_of_perm hperm hk']
    · rw [hlevels, levelsOfMembers_of_perm leaf hperm]
    · exact hwritable.trans (writableMembers_of_perm hperm)
  | .null, _, _, rfl | .bool _, _, _, rfl | .int _, _, _, rfl | .float _, _, _, rfl
  | .str _, _, _, rfl => ⟨rfl, fun _ => rfl, rfl⟩

theorem AlikeItems.same : ∀ {vs ws : List Json}, WellKeyedItems vs → AlikeItems vs ws →
    sortedItems vs = sortedItems ws ∧ (∀ leaf, levelsOfItems leaf vs = levelsOfItems leaf ws) ∧
      writableItems vs = writableItems ws
  | [], _, _, rfl => ⟨rfl, fun _ => rfl, rfl⟩
  | v :: vs, _, ⟨hv, hvs⟩, ⟨w, ws, rfl, h, hs⟩ => by
    obtain ⟨hsorted, hlevels, hwritable⟩ := Alike.sameMeasures hv h
    obtain ⟨hsorted', hlevels', hwritable'⟩ := AlikeItems.same hvs hs
    refine ⟨?_, fun leaf => ?_, ?_⟩
    · rw [sortedItems, sortedItems, hsorted, hsorted']
    · rw [levelsOfItems, levelsOfItems, hlevels, hlevels']
    · rw [writableItems, writableItems, hwritable, hwritable']

theorem AlikeMembers.same : ∀ {ms ns : List (String × Json)}, WellKeyedMembers ms →
    AlikeMembers ms ns → ns.map (·.1) = ms.map (·.1) ∧ sortedMembers ms = sortedMembers ns ∧
      (∀ leaf, levelsOfMembers leaf ms = levelsOfMembers leaf ns) ∧
      writableMembers ms = writableMembers ns
  | [], _, _, rfl => ⟨rfl, rfl, fun _ => rfl, rfl⟩
  | (k, v) :: ms, _, ⟨hv, hms⟩, ⟨w, ns, rfl, h, hs⟩ => by
    obtain ⟨hsorted, hlevels, hwritable⟩ := Alike.sameMeasures hv h
    obtain ⟨hkeys, hsorted', hlevels', hwritable'⟩ := AlikeMembers.same hms hs
    refine ⟨congrArg (k :: ·) hkeys, ?_, fun leaf => ?_, ?_⟩
    · rw [sortedMembers, sortedMembers, hsorted, hsorted']
    · rw [levelsOfMembers, levelsOfMembers, hlevels, hlevels']
    · rw [writableMembers, writableMembers, hwritable, hwritable']

end

/-- The values mean the same whatever is wanted of them. -/
structure SameMeaning (v w : Json) : Prop where
  text : v.text = w.text
  flag : ∀ default, v.flag default = w.flag default
  words : v.words = w.words
  lines : v.lines = w.lines

theorem SameMeaning.refl (v : Json) : SameMeaning v v :=
  ⟨rfl, fun _ => rfl, rfl, rfl⟩

theorem SameMeasures.objectText {ms ns : List (String × Json)} (h : SameMeasures (.obj ms) (.obj ns)) (room : Nat) :
    objectText room ms = objectText room ns := by
  unfold Json.objectText
  rw [h.sorted]

mutual

theorem Alike.textWithin : ∀ {v w : Json}, v.WellKeyed → v.Alike w → ∀ room,
    textWithin room v = textWithin room w
  | .arr items, _, hk, ⟨items', rfl, h⟩, room => by
    rw [Json.textWithin, Json.textWithin, AlikeItems.textsWithin hk h]
  | .obj members, _, hk, h, room => by
    have hsame := Alike.sameMeasures hk h
    obtain ⟨members', reordered, rfl, -, -⟩ := h
    rw [Json.textWithin, Json.textWithin, hsame.objectText]
  | .null, _, _, rfl, _ | .bool _, _, _, rfl, _ | .int _, _, _, rfl, _ | .float _, _, _, rfl, _
  | .str _, _, _, rfl, _ => rfl

theorem AlikeItems.textsWithin : ∀ {vs ws : List Json}, WellKeyedItems vs → AlikeItems vs ws →
    ∀ room, textsWithin room vs = textsWithin room ws
  | [], _, _, rfl, _ => rfl
  | v :: vs, _, ⟨hv, hvs⟩, ⟨w, ws, rfl, h, hs⟩, room => by
    rw [Json.textsWithin, Json.textsWithin, Alike.textWithin hv h, AlikeItems.textsWithin hvs hs]

end

theorem AlikeItems.isEmpty {vs ws : List Json} (h : AlikeItems vs ws) : vs.isEmpty = ws.isEmpty := by
  cases vs with
  | nil => rw [h]
  | cons v vs =>
    obtain ⟨w, ws', rfl, -, -⟩ := h
    rfl

theorem AlikeMembers.isEmpty {ms ns : List (String × Json)} (h : AlikeMembers ms ns) :
    ms.isEmpty = ns.isEmpty := by
  cases ms with
  | nil => rw [h]
  | cons m ms =>
    obtain ⟨w, ns', rfl, -, -⟩ := h
    rfl

theorem Alike.sameMeaning {v w : Json} (hk : v.WellKeyed) (h : v.Alike w) : SameMeaning v w := by
  have htext : v.text = w.text := h.textWithin hk freeCalls
  cases v with
  | arr items =>
    obtain ⟨items', rfl, hitems⟩ := h
    have htexts := hitems.textsWithin hk (freeCalls - 1)
    refine ⟨htext, fun default => ?_, ?_, htexts⟩
    · simp only [flag, isGiven, hitems.isEmpty]
    · simp only [words, htexts]
  | obj members =>
    obtain ⟨members', reordered, rfl, hperm, hmembers⟩ := h
    have hempty : members.isEmpty = members'.isEmpty := hmembers.isEmpty.trans hperm.isEmpty_eq
    refine ⟨htext, fun default => ?_, ?_, ?_⟩
    · simp only [flag, isGiven, hempty]
    · simp only [words, htext]
    · simp only [lines, htext]
  | null | bool _ | int _ | float _ | str _ =>
    obtain rfl := h
    exact .refl _

end Provision.Json
