import Provision.Proofs.Json.Alike

/-!
# Values that have a text

`exists_textWithin`: a value has a text when none of its integers has too many digits, and there is room for the
calls that it takes: three for each list around an item, and for an object five and one for each of its levels.
Nothing else keeps a value from having one.
-/

namespace Provision

variable {ε α β : Type}

theorem Except.exists_map_ok {f : α → β} {x : Except ε α} :
    (∃ b, x.map f = .ok b) ↔ ∃ a, x = .ok a := by
  simp only [Except.map_eq_ok]
  exact ⟨fun ⟨_, a, ha, _⟩ => ⟨a, ha⟩, fun ⟨a, ha⟩ => ⟨_, a, ha, rfl⟩⟩

namespace Json

variable {room : Nat} {v : Json}

mutual

/-- The calls inside each other that it takes to make a value a text. -/
def calls : Json → Nat
  | .null => 1
  | .arr items => listCalls + callsOfItems items
  | .obj members => writerCalls + (Json.obj members).depth
  | _ => 2

def callsOfItems : List Json → Nat
  | [] => 0
  | v :: vs => max (calls v) (callsOfItems vs)

end

mutual

theorem calls_le : ∀ v : Json, v.calls ≤ 3 * v.depth + writerCalls
  | .arr items => by
    have := callsOfItems_le items
    simp only [calls, depth, levels, listCalls, writerCalls] at *
    omega
  | .obj members => by
    simp only [calls]
    omega
  | .null | .bool _ | .int _ | .float _ | .str _ => by simp [calls, writerCalls]

theorem callsOfItems_le : ∀ vs : List Json, callsOfItems vs ≤ 3 * levelsOfItems 0 vs + writerCalls
  | [] => Nat.zero_le _
  | v :: vs => by
    have := calls_le v
    have := callsOfItems_le vs
    simp only [callsOfItems, levelsOfItems, depth] at *
    omega

end

/-- Nothing in a value keeps it from having a text, where there is this room. -/
structure HasText (room : Nat) (v : Json) : Prop where
  writable : v.writable = true
  calls : v.calls ≤ room

mutual

theorem levels_sorted (leaf : Nat) : ∀ v : Json, v.sorted.levels leaf = v.levels leaf
  | .arr items => congrArg (· + 1) (levelsOfItems_sorted leaf items)
  | .obj members => congrArg (· + 1)
    ((levelsOfMembers_of_perm leaf (sortByKey_perm _)).trans (levelsOfMembers_sorted leaf members))
  | .null | .bool _ | .int _ | .float _ | .str _ => rfl

theorem levelsOfItems_sorted (leaf : Nat) : ∀ vs : List Json,
    levelsOfItems leaf (sortedItems vs) = levelsOfItems leaf vs
  | [] => rfl
  | v :: vs => by rw [sortedItems, levelsOfItems, levelsOfItems, levels_sorted, levelsOfItems_sorted]

theorem levelsOfMembers_sorted (leaf : Nat) : ∀ ms : List (String × Json),
    levelsOfMembers leaf (sortedMembers ms) = levelsOfMembers leaf ms
  | [] => rfl
  | (_, v) :: ms => by
    rw [sortedMembers, levelsOfMembers, levelsOfMembers, levels_sorted, levelsOfMembers_sorted]

end

mutual

theorem writable_sorted : ∀ v : Json, v.sorted.writable = v.writable
  | .arr items => writableItems_sorted items
  | .obj members => (writableMembers_of_perm (sortByKey_perm _)).trans (writableMembers_sorted members)
  | .null | .bool _ | .int _ | .float _ | .str _ => rfl

theorem writableItems_sorted : ∀ vs : List Json, writableItems (sortedItems vs) = writableItems vs
  | [] => rfl
  | v :: vs => by rw [sortedItems, writableItems, writableItems, writable_sorted, writableItems_sorted]

theorem writableMembers_sorted : ∀ ms : List (String × Json),
    writableMembers (sortedMembers ms) = writableMembers ms
  | [] => rfl
  | (_, v) :: ms => by
    rw [sortedMembers, writableMembers, writableMembers, writable_sorted, writableMembers_sorted]

end

mutual

theorem obstacle?_eq_none : ∀ (v : Json) (room : Nat),
    obstacle? room v = none ↔ v.writable = true ∧ v.depth ≤ room
  | .int n, room => by cases h : fitsDigitLimit n <;> simp [obstacle?, writable, depth, levels, h]
  | .arr items, 0 | .obj members, 0 => by simp [obstacle?, depth, levels]
  | .arr items, room + 1 => by
    rw [obstacle?, firstObstacle?_eq_none items room, writable, depth, levels, Nat.add_le_add_iff_right]
  | .obj members, room + 1 => by
    rw [obstacle?, memberObstacle?_eq_none members room, writable, depth, levels, Nat.add_le_add_iff_right]
  | .null, _ | .bool _, _ | .float _, _ | .str _, _ => by simp [obstacle?, writable, depth, levels]

theorem firstObstacle?_eq_none : ∀ (vs : List Json) (room : Nat),
    firstObstacle? room vs = none ↔ writableItems vs = true ∧ levelsOfItems 0 vs ≤ room
  | [], room => by simp [firstObstacle?, writableItems, levelsOfItems]
  | v :: vs, room => by
    rw [firstObstacle?, Option.or_eq_none_iff, obstacle?_eq_none v room, firstObstacle?_eq_none vs room,
      writableItems, levelsOfItems, Bool.and_eq_true, Nat.max_le, depth]
    tauto

theorem memberObstacle?_eq_none : ∀ (ms : List (String × Json)) (room : Nat),
    memberObstacle? room ms = none ↔ writableMembers ms = true ∧ levelsOfMembers 0 ms ≤ room
  | [], room => by simp [memberObstacle?, writableMembers, levelsOfMembers]
  | (_, v) :: ms, room => by
    rw [memberObstacle?, Option.or_eq_none_iff, obstacle?_eq_none v room, memberObstacle?_eq_none ms room,
      writableMembers, levelsOfMembers, Bool.and_eq_true, Nat.max_le, depth]
    tauto

end

theorem objectText_eq_ok {members : Members} {t : String} :
    objectText room members = .ok t ↔ ((Json.obj members).writable = true ∧ (Json.obj members).depth ≤ room) ∧
      (Json.obj members).sorted.toCompact .ascii = t := by
  have hsorted := obstacle?_eq_none (Json.obj members).sorted room
  rw [writable_sorted, depth, levels_sorted, ← depth] at hsorted
  rw [← hsorted, objectText]
  cases obstacle? room (Json.obj members).sorted <;> simp

theorem exists_objectText {members : Members} :
    (∃ t, objectText room members = .ok t) ↔
      (Json.obj members).writable = true ∧ (Json.obj members).depth ≤ room := by
  simp only [objectText_eq_ok, exists_and_left, exists_eq', and_true]

theorem taking_eq_ok {α : Type} {n : Nat} {x : Except TextFault α} {a : α} :
    taking n room x = .ok a ↔ n ≤ room ∧ x = .ok a := by
  rw [taking]
  by_cases h : room < n
  · simp [h, Nat.not_le.2 h]
  · simp [h, Nat.not_lt.1 h]

theorem exists_taking {α : Type} {n : Nat} {x : Except TextFault α} :
    (∃ a, taking n room x = .ok a) ↔ n ≤ room ∧ ∃ a, x = .ok a := by
  simp only [taking_eq_ok, exists_and_left]

theorem le_sub_and {n m : Nat} : (n ≤ room ∧ m ≤ room - n) ↔ n + m ≤ room := by
  omega

theorem exists_textsWithin_cons {vs : List Json} :
    (∃ ts, textsWithin room (v :: vs) = .ok ts) ↔
      (∃ t, textWithin room v = .ok t) ∧ ∃ ts, textsWithin room vs = .ok ts := by
  simp only [textsWithin, Except.bind_eq_ok]
  constructor
  · rintro ⟨_, t, ht, ts, hts, _⟩
    exact ⟨⟨t, ht⟩, ts, hts⟩
  · rintro ⟨⟨t, ht⟩, ts, hts⟩
    exact ⟨t :: ts, t, ht, ts, hts, rfl⟩

mutual

theorem exists_textWithin : ∀ (v : Json) (room : Nat),
    (∃ t, textWithin room v = .ok t) ↔ v.writable = true ∧ v.calls ≤ room
  | .arr items, room => by
    rw [textWithin, exists_taking, Except.exists_map_ok, exists_textsWithin items, writable, calls, ← le_sub_and]
    tauto
  | .obj members, room => by
    rw [textWithin, exists_taking, exists_objectText, calls, ← le_sub_and]
    tauto
  | .int n, room => by
    cases h : fitsDigitLimit n <;> simp [textWithin, exists_taking, h, writable, calls]
  | .null, _ | .bool _, _ | .float _, _ | .str _, _ => by simp [textWithin, exists_taking, writable, calls]

theorem exists_textsWithin : ∀ (vs : List Json) (room : Nat),
    (∃ ts, textsWithin room vs = .ok ts) ↔ writableItems vs = true ∧ callsOfItems vs ≤ room
  | [], room => by simp [textsWithin, writableItems, callsOfItems]
  | v :: vs, room => by
    rw [exists_textsWithin_cons, exists_textWithin v room, exists_textsWithin vs room, writableItems,
      callsOfItems, Bool.and_eq_true, Nat.max_le]
    tauto

end

theorem exists_text_iff : (∃ t, v.text room = .ok t) ↔ v.HasText room := by
  rw [text, exists_textWithin]
  exact ⟨fun ⟨hw, hcalls⟩ => ⟨hw, hcalls⟩, fun h => ⟨h.writable, h.calls⟩⟩

mutual

theorem textWithin_mono : ∀ {n m : Nat} {v : Json} {t : String}, n ≤ m → textWithin n v = .ok t →
    textWithin m v = .ok t
  | n, m, .arr _, _, hle, h => by
    rw [textWithin, taking_eq_ok] at h ⊢
    obtain ⟨hroom, h⟩ := h
    obtain ⟨ts, hts, rfl⟩ := Except.map_eq_ok.1 h
    exact ⟨Nat.le_trans hroom hle, Except.map_eq_ok.2 ⟨ts, textsWithin_mono (Nat.sub_le_sub_right hle _) hts, rfl⟩⟩
  | n, m, .obj members, t, hle, h => by
    rw [textWithin, taking_eq_ok, objectText_eq_ok] at h ⊢
    obtain ⟨hroom, ⟨hw, hdepth⟩, ht⟩ := h
    exact ⟨Nat.le_trans hroom hle, ⟨hw, Nat.le_trans hdepth (Nat.sub_le_sub_right hle _)⟩, ht⟩
  | _, _, .null, _, hle, h | _, _, .bool _, _, hle, h | _, _, .int _, _, hle, h | _, _, .float _, _, hle, h
  | _, _, .str _, _, hle, h => by
    rw [textWithin, taking_eq_ok] at h ⊢
    exact ⟨Nat.le_trans h.1 hle, h.2⟩

theorem textsWithin_mono : ∀ {n m : Nat} {vs : List Json} {ts : List String}, n ≤ m → textsWithin n vs = .ok ts →
    textsWithin m vs = .ok ts
  | _, _, [], _, _, h => h
  | _, _, _ :: _, _, hle, h => by
    obtain ⟨t, ht, h⟩ := Except.bind_eq_ok.1 h
    obtain ⟨ts, hts, h⟩ := Except.bind_eq_ok.1 h
    exact Except.bind_eq_ok.2 ⟨t, textWithin_mono hle ht, Except.bind_eq_ok.2 ⟨ts, textsWithin_mono hle hts, h⟩⟩

end

theorem HasText.of_depth (hw : v.writable = true) (hd : 3 * v.depth + writerCalls ≤ room) : v.HasText room :=
  ⟨hw, Nat.le_trans (calls_le v) hd⟩

end Json

end Provision
