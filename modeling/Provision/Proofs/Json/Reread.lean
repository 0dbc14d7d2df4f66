import Provision.Proofs.Json.Floats
import Provision.Proofs.Json.Shape

/-!
# Values with other floating-point numbers

Writing replaces the floating-point numbers that are not finite, and reading what was written may give other numbers
again (`reread`). Both only change the numbers themselves (`mapFloats`), so all that a value is besides stays: its
levels, its keys, and everything where it holds no such number.
-/

namespace Provision.Json

variable {f : Float → Json}

mutual

/-- The value with something else in the place of every floating-point number. -/
def mapFloats (f : Float → Json) : Json → Json
  | .float x => f x
  | .arr items => .arr (mapFloatsItems f items)
  | .obj members => .obj (mapFloatsMembers f members)
  | v => v

def mapFloatsItems (f : Float → Json) : List Json → List Json
  | [] => []
  | v :: vs => mapFloats f v :: mapFloatsItems f vs

def mapFloatsMembers (f : Float → Json) : List (String × Json) → List (String × Json)
  | [] => []
  | (k, v) :: ms => (k, mapFloats f v) :: mapFloatsMembers f ms

end

theorem mapFloatsItems_eq_map (vs : List Json) : mapFloatsItems f vs = vs.map (mapFloats f) := by
  induction vs with
  | nil => rfl
  | cons v vs ih => rw [mapFloatsItems, ih, List.map_cons]

theorem mapFloatsMembers_eq_map (ms : Members) : mapFloatsMembers f ms = ms.map fun m => (m.1, m.2.mapFloats f) := by
  induction ms with
  | nil => rfl
  | cons m ms ih =>
    obtain ⟨k, v⟩ := m
    rw [mapFloatsMembers, ih, List.map_cons]

theorem isKeyed_mapFloatsMembers {ms : Members} : IsKeyed (mapFloatsMembers f ms) ↔ IsKeyed ms := by
  rw [mapFloatsMembers_eq_map]
  exact isKeyed_map (mapFloats f)

theorem mem_mapFloatsMembers {ms : Members} {m : String × Json} :
    m ∈ mapFloatsMembers f ms ↔ ∃ m₀ ∈ ms, m = (m₀.1, m₀.2.mapFloats f) := by
  rw [mapFloatsMembers_eq_map, List.mem_map]
  exact exists_congr fun m₀ => and_congr_right fun _ => eq_comm

mutual

theorem mapFloats_of_isExact : ∀ v : Json, v.isExact = true → v.mapFloats f = v
  | .arr items, h => by rw [mapFloats, mapFloatsItems_of_isExact items h]
  | .obj members, h => by rw [mapFloats, mapFloatsMembers_of_isExact members h]
  | .null, _ | .bool _, _ | .int _, _ | .str _, _ => rfl

theorem mapFloatsItems_of_isExact : ∀ vs : List Json, isExactItems vs = true → mapFloatsItems f vs = vs
  | [], _ => rfl
  | v :: vs, h => by
    rw [isExactItems, Bool.and_eq_true] at h
    rw [mapFloatsItems, mapFloats_of_isExact v h.1, mapFloatsItems_of_isExact vs h.2]

theorem mapFloatsMembers_of_isExact : ∀ ms : Members, isExactMembers ms = true → mapFloatsMembers f ms = ms
  | [], _ => rfl
  | (k, v) :: ms, h => by
    rw [isExactMembers, Bool.and_eq_true] at h
    rw [mapFloatsMembers, mapFloats_of_isExact v h.1, mapFloatsMembers_of_isExact ms h.2]

end

mutual

theorem levels_mapFloats (hf : ∀ x leaf, (f x).levels leaf = leaf) (leaf : Nat) :
    ∀ v : Json, (v.mapFloats f).levels leaf = v.levels leaf
  | .float x => hf x leaf
  | .arr items => by rw [mapFloats, levels, levels, levelsOfItems_mapFloats hf leaf items]
  | .obj members => by rw [mapFloats, levels, levels, levelsOfMembers_mapFloats hf leaf members]
  | .null | .bool _ | .int _ | .str _ => rfl

theorem levelsOfItems_mapFloats (hf : ∀ x leaf, (f x).levels leaf = leaf) (leaf : Nat) :
    ∀ vs : List Json, levelsOfItems leaf (mapFloatsItems f vs) = levelsOfItems leaf vs
  | [] => rfl
  | v :: vs => by
    rw [mapFloatsItems, levelsOfItems, levelsOfItems, levels_mapFloats hf leaf v, levelsOfItems_mapFloats hf leaf vs]

theorem levelsOfMembers_mapFloats (hf : ∀ x leaf, (f x).levels leaf = leaf) (leaf : Nat) :
    ∀ ms : Members, levelsOfMembers leaf (mapFloatsMembers f ms) = levelsOfMembers leaf ms
  | [] => rfl
  | (k, v) :: ms => by
    rw [mapFloatsMembers, levelsOfMembers, levelsOfMembers, levels_mapFloats hf leaf v,
      levelsOfMembers_mapFloats hf leaf ms]

end

mutual

theorem wellKeyed_mapFloats (hf : ∀ x, (f x).WellKeyed) : ∀ v : Json, v.WellKeyed → (v.mapFloats f).WellKeyed
  | .float x, _ => hf x
  | .arr items, h => wellKeyedItems_mapFloats hf items h
  | .obj members, h => ⟨isKeyed_mapFloatsMembers.2 h.1, wellKeyedMembers_mapFloats hf members h.2⟩
  | .null, _ | .bool _, _ | .int _, _ | .str _, _ => trivial

theorem wellKeyedItems_mapFloats (hf : ∀ x, (f x).WellKeyed) :
    ∀ vs : List Json, WellKeyedItems vs → WellKeyedItems (mapFloatsItems f vs)
  | [], _ => trivial
  | v :: vs, h => ⟨wellKeyed_mapFloats hf v h.1, wellKeyedItems_mapFloats hf vs h.2⟩

theorem wellKeyedMembers_mapFloats (hf : ∀ x, (f x).WellKeyed) :
    ∀ ms : Members, WellKeyedMembers ms → WellKeyedMembers (mapFloatsMembers f ms)
  | [], _ => trivial
  | (_, v) :: ms, h => ⟨wellKeyed_mapFloats hf v h.1, wellKeyedMembers_mapFloats hf ms h.2⟩

end

/-- What is written for a floating-point number. -/
def finiteFloat (x : Float) : Json :=
  if x.isFinite then .float x else .null

theorem levels_finiteFloat (x : Float) (leaf : Nat) : (finiteFloat x).levels leaf = leaf := by
  rw [finiteFloat]
  split <;> rfl

theorem wellKeyed_finiteFloat (x : Float) : (finiteFloat x).WellKeyed := by
  rw [finiteFloat]
  split <;> trivial

mutual

theorem finite_eq_mapFloats : ∀ v : Json, v.finite = v.mapFloats finiteFloat
  | .float x => by rw [finite, mapFloats, finiteFloat]
  | .arr items => by rw [finite, mapFloats, finiteItems_eq_mapFloats items]
  | .obj members => by rw [finite, mapFloats, finiteMembers_eq_mapFloats members]
  | .null | .bool _ | .int _ | .str _ => rfl

theorem finiteItems_eq_mapFloats : ∀ vs : List Json, finiteItems vs = mapFloatsItems finiteFloat vs
  | [] => rfl
  | v :: vs => by rw [finiteItems, mapFloatsItems, finite_eq_mapFloats v, finiteItems_eq_mapFloats vs]

theorem finiteMembers_eq_mapFloats : ∀ ms : Members, finiteMembers ms = mapFloatsMembers finiteFloat ms
  | [] => rfl
  | (k, v) :: ms => by rw [finiteMembers, mapFloatsMembers, finite_eq_mapFloats v, finiteMembers_eq_mapFloats ms]

end

/-- The floating-point number that the text of one is read as. -/
def rereadFloat (x : Float) : Float :=
  match read .standard (Decimal.floatText numberWords x) with
  | .ok (.float y) => y
  | _ => x

/-- The value that the text of one is read as. -/
def reread (v : Json) : Json :=
  v.mapFloats fun x => .float (rereadFloat x)

def rereadItems (vs : List Json) : List Json :=
  mapFloatsItems (fun x => .float (rereadFloat x)) vs

def rereadMembers (ms : Members) : Members :=
  mapFloatsMembers (fun x => .float (rereadFloat x)) ms

theorem reread_of_isExact {v : Json} (h : v.isExact = true) : v.reread = v :=
  mapFloats_of_isExact v h

end Provision.Json
