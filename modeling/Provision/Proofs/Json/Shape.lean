import Provision.Proofs.Keyed

/-!
# The shape of values

`isExact` values hold no floating-point numbers, `WellKeyed` values no key twice in an object, which all
values that are read or built have. The other measures of a value are put in terms of its items and
members here, so that none of their recursions is unfolded elsewhere.
-/

namespace Provision.Json

mutual

/-- Whether a value holds no floating-point number. -/
def isExact : Json → Bool
  | .float _ => false
  | .arr items => isExactItems items
  | .obj members => isExactMembers members
  | _ => true

def isExactItems : List Json → Bool
  | [] => true
  | v :: vs => isExact v && isExactItems vs

def isExactMembers : List (String × Json) → Bool
  | [] => true
  | (_, v) :: ms => isExact v && isExactMembers ms

end

mutual

/-- No object in a value has a key twice. -/
def WellKeyed : Json → Prop
  | .arr items => WellKeyedItems items
  | .obj members => IsKeyed members ∧ WellKeyedMembers members
  | _ => True

def WellKeyedItems : List Json → Prop
  | [] => True
  | v :: vs => WellKeyed v ∧ WellKeyedItems vs

def WellKeyedMembers : List (String × Json) → Prop
  | [] => True
  | (_, v) :: ms => WellKeyed v ∧ WellKeyedMembers ms

end

variable {items : List Json} {members : List (String × Json)}

theorem isExactItems_iff : isExactItems items = true ↔ ∀ v ∈ items, v.isExact = true := by
  induction items with
  | nil => simp [isExactItems]
  | cons v vs ih => simp [isExactItems, ih]

theorem isExactMembers_iff :
    isExactMembers members = true ↔ ∀ m ∈ members, m.2.isExact = true := by
  induction members with
  | nil => simp [isExactMembers]
  | cons m ms ih =>
    obtain ⟨k, v⟩ := m
    simp only [isExactMembers, Bool.and_eq_true, ih, List.forall_mem_cons]

theorem wellKeyedItems_iff : WellKeyedItems items ↔ ∀ v ∈ items, v.WellKeyed := by
  induction items with
  | nil => simp [WellKeyedItems]
  | cons v vs ih => simp [WellKeyedItems, ih]

theorem wellKeyedMembers_iff : WellKeyedMembers members ↔ ∀ m ∈ members, m.2.WellKeyed := by
  induction members with
  | nil => simp [WellKeyedMembers]
  | cons m ms ih =>
    obtain ⟨k, v⟩ := m
    simp only [WellKeyedMembers, ih, List.forall_mem_cons]

theorem writableItems_iff : writableItems items = true ↔ ∀ v ∈ items, v.writable = true := by
  induction items with
  | nil => simp [writableItems]
  | cons v vs ih => simp [writableItems, ih]

theorem writableMembers_iff :
    writableMembers members = true ↔ ∀ m ∈ members, m.2.writable = true := by
  induction members with
  | nil => simp [writableMembers]
  | cons m ms ih =>
    obtain ⟨k, v⟩ := m
    simp only [writableMembers, Bool.and_eq_true, ih, List.forall_mem_cons]

theorem levelsOfItems_le {leaf n : Nat} :
    levelsOfItems leaf items ≤ n ↔ ∀ v ∈ items, v.levels leaf ≤ n := by
  induction items with
  | nil => simp [levelsOfItems]
  | cons v vs ih => simp only [levelsOfItems, Nat.max_le, ih, List.forall_mem_cons]

theorem levelsOfMembers_le {leaf n : Nat} :
    levelsOfMembers leaf members ≤ n ↔ ∀ m ∈ members, m.2.levels leaf ≤ n := by
  induction members with
  | nil => simp [levelsOfMembers]
  | cons m ms ih =>
    obtain ⟨k, v⟩ := m
    simp only [levelsOfMembers, Nat.max_le, ih, List.forall_mem_cons]

theorem isExact_arr : (Json.arr items).isExact = true ↔ ∀ v ∈ items, v.isExact = true := by
  rw [isExact, isExactItems_iff]

theorem isExact_obj : (Json.obj members).isExact = true ↔ ∀ m ∈ members, m.2.isExact = true := by
  rw [isExact, isExactMembers_iff]

theorem wellKeyed_arr : (Json.arr items).WellKeyed ↔ ∀ v ∈ items, v.WellKeyed := by
  rw [WellKeyed, wellKeyedItems_iff]

theorem wellKeyed_obj :
    (Json.obj members).WellKeyed ↔ IsKeyed members ∧ ∀ m ∈ members, m.2.WellKeyed := by
  rw [WellKeyed, wellKeyedMembers_iff]

theorem writable_arr : (Json.arr items).writable = true ↔ ∀ v ∈ items, v.writable = true := by
  rw [writable, writableItems_iff]

theorem writable_obj :
    (Json.obj members).writable = true ↔ ∀ m ∈ members, m.2.writable = true := by
  rw [writable, writableMembers_iff]

theorem levels_arr_le {leaf n : Nat} :
    (Json.arr items).levels leaf ≤ n + 1 ↔ ∀ v ∈ items, v.levels leaf ≤ n := by
  rw [levels, Nat.add_le_add_iff_right, levelsOfItems_le]

theorem levels_obj_le {leaf n : Nat} :
    (Json.obj members).levels leaf ≤ n + 1 ↔ ∀ m ∈ members, m.2.levels leaf ≤ n := by
  rw [levels, Nat.add_le_add_iff_right, levelsOfMembers_le]

theorem finiteMembers_eq_map (ms : List (String × Json)) :
    finiteMembers ms = ms.map fun (k, v) => (k, v.finite) := by
  induction ms with
  | nil => rfl
  | cons m ms ih =>
    obtain ⟨k, v⟩ := m
    rw [finiteMembers, ih, List.map_cons]

mutual

theorem finite_of_isExact : ∀ v : Json, v.isExact = true → v.finite = v
  | .arr items, h => by rw [finite, finiteItems_of_isExact items h]
  | .obj members, h => by rw [finite, finiteMembers_of_isExact members h]
  | .null, _ | .bool _, _ | .int _, _ | .str _, _ => rfl

theorem finiteItems_of_isExact : ∀ vs : List Json, isExactItems vs = true → finiteItems vs = vs
  | [], _ => rfl
  | v :: vs, h => by
    rw [isExactItems, Bool.and_eq_true] at h
    rw [finiteItems, finite_of_isExact v h.1, finiteItems_of_isExact vs h.2]

theorem finiteMembers_of_isExact :
    ∀ ms : List (String × Json), isExactMembers ms = true → finiteMembers ms = ms
  | [], _ => rfl
  | (k, v) :: ms, h => by
    rw [isExactMembers, Bool.and_eq_true] at h
    rw [finiteMembers, finite_of_isExact v h.1, finiteMembers_of_isExact ms h.2]

end

mutual

theorem levels_mono {a b : Nat} (h : a ≤ b) : ∀ v : Json, v.levels a ≤ v.levels b
  | .arr items => Nat.succ_le_succ (levelsOfItems_mono h items)
  | .obj members => Nat.succ_le_succ (levelsOfMembers_mono h members)
  | .null | .bool _ | .int _ | .float _ | .str _ => h

theorem levelsOfItems_mono {a b : Nat} (h : a ≤ b) :
    ∀ vs : List Json, levelsOfItems a vs ≤ levelsOfItems b vs
  | [] => Nat.le_refl 0
  | v :: vs => by
    have := levels_mono h v
    have := levelsOfItems_mono h vs
    simp only [levelsOfItems]
    omega

theorem levelsOfMembers_mono {a b : Nat} (h : a ≤ b) :
    ∀ ms : List (String × Json), levelsOfMembers a ms ≤ levelsOfMembers b ms
  | [] => Nat.le_refl 0
  | (_, v) :: ms => by
    have := levels_mono h v
    have := levelsOfMembers_mono h ms
    simp only [levelsOfMembers]
    omega

end

theorem depth_le_height (v : Json) : v.depth ≤ v.height :=
  levels_mono (Nat.zero_le 1) v

end Provision.Json
