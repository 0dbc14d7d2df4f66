import Provision.Proofs.Web.Requests

/-!
# Halves of surrogate pairs

A JSON text may spell half of a surrogate pair without its other half. The reader takes a mark in its place, where a
string of the program would keep the half and could not be written to a file. Texts and bodies without such a half are
told apart here (`Json.isPaired`, `Request.isPaired`): their strings are read as they are spelled
(`spells_of_stringTail`).
-/

namespace Provision

namespace Json

open Web (isHigh isLow)

variable {p : Pending} {cs rest : List Char} {s : String}

/-- Every half among the units stands next to its other half; `half` tells whether a first half stands before them. -/
def arePaired (half : Bool) : List Nat → Bool
  | [] => !half
  | u :: us =>
    if isHigh u then !half && arePaired true us
    else if isLow u then half && arePaired false us
    else !half && arePaired false us

/-- The units that are escaped in a text, with a zero for each other character. -/
def escapedUnits : List Char → List Nat
  | '\\' :: 'u' :: a :: b :: c :: d :: cs => (hex4? a b c d).getD 0 :: escapedUnits cs
  | '\\' :: _ :: cs => 0 :: escapedUnits cs
  | _ :: cs => 0 :: escapedUnits cs
  | [] => []

/-- No half of a pair is escaped alone. -/
def isPaired (text : String) : Bool :=
  arePaired false (escapedUnits text.toList)

/-- What is spelled between the quotes of a string, after the first half of a pair where there is one. -/
inductive Spells : Option Nat → List Char → List Char → Prop
  | done : Spells none [] []
  | plain {c : Char} {cs xs : List Char} : c ≠ '\x22' → c ≠ '\\' → ' ' ≤ c → Spells none cs xs →
      Spells none (c :: cs) (c :: xs)
  | letter {c e : Char} {cs xs : List Char} : escaped? c = some e → Spells none cs xs →
      Spells none ('\\' :: c :: cs) (e :: xs)
  | unit {a b c d : Char} {u : Nat} {cs xs : List Char} : hex4? a b c d = some u → isHigh u = false →
      isLow u = false → Spells none cs xs → Spells none ('\\' :: 'u' :: a :: b :: c :: d :: cs) (Char.ofNat u :: xs)
  | high {a b c d : Char} {u : Nat} {cs xs : List Char} : hex4? a b c d = some u → isHigh u = true →
      Spells (some u) cs xs → Spells none ('\\' :: 'u' :: a :: b :: c :: d :: cs) xs
  | low {a b c d : Char} {h u : Nat} {cs xs : List Char} : hex4? a b c d = some u → isLow u = true →
      Spells none cs xs → Spells (some h) ('\\' :: 'u' :: a :: b :: c :: d :: cs)
        (Char.ofNat (0x10000 + (h - 0xD800) * 0x400 + (u - 0xDC00)) :: xs)

theorem arePaired_zero {half : Option Nat} {us : List Nat} :
    arePaired half.isSome (0 :: us) = true ↔ half = none ∧ arePaired false us = true := by
  rw [arePaired, if_neg (by decide), if_neg (by decide)]
  simp

theorem arePaired_unit {half : Option Nat} {u : Nat} {us : List Nat} (h : arePaired half.isSome (u :: us) = true) :
    (half = none ∧ isHigh u = true ∧ arePaired true us = true) ∨
      (∃ n, half = some n ∧ isHigh u = false ∧ isLow u = true ∧ arePaired false us = true) ∨
        (half = none ∧ isHigh u = false ∧ isLow u = false ∧ arePaired false us = true) := by
  rw [arePaired] at h
  cases half <;> cases hu : isHigh u <;> cases hl : isLow u <;> simp_all

theorem escapedUnits_escape {a b c d : Char} {u : Nat} (hu : hex4? a b c d = some u) (cs : List Char) :
    escapedUnits ('\\' :: 'u' :: a :: b :: c :: d :: cs) = u :: escapedUnits cs := by
  rw [escapedUnits, hu, Option.getD_some]

theorem escapedUnits_letter {c : Char} (hc : c ≠ 'u') (cs : List Char) :
    escapedUnits ('\\' :: c :: cs) = 0 :: escapedUnits cs := by
  rw [escapedUnits]
  rintro a b c d cs ⟨⟩
  exact absurd rfl hc

theorem escapedUnits_plain {c : Char} (hc : c ≠ '\\') (cs : List Char) :
    escapedUnits (c :: cs) = 0 :: escapedUnits cs := by
  rw [escapedUnits]
  · rintro a b c d cs ⟨⟩
    exact absurd rfl hc
  · rintro c cs ⟨⟩
    exact absurd rfl hc

theorem arePaired_of_plain {cs : List Char} (h : '\\' ∉ cs) : arePaired false (escapedUnits cs) = true := by
  induction cs with
  | nil => rfl
  | cons c cs ih =>
    obtain ⟨hc, hcs⟩ := not_or.1 (mt List.mem_cons.2 h)
    rw [escapedUnits_plain (Ne.symm hc)]
    change arePaired (none : Option Nat).isSome _ = true
    exact arePaired_zero.2 ⟨rfl, ih hcs⟩

namespace Pending

theorem push_of_none (h : p.half = none) (c : Char) : p.push c = ⟨c :: p.read, none⟩ := by
  rw [push, flush, h]

theorem pushUnit_high {u : Nat} (h : p.half = none) (hu : isHigh u = true) : p.pushUnit u = ⟨p.read, some u⟩ := by
  rw [pushUnit, flush, h]
  exact if_pos hu

theorem pushUnit_low {u half : Nat} (h : p.half = some half) (hu : isHigh u = false) (hl : isLow u = true) :
    p.pushUnit u = ⟨Char.ofNat (0x10000 + (half - 0xD800) * 0x400 + (u - 0xDC00)) :: p.read, none⟩ := by
  rw [pushUnit, h]
  exact (if_neg (Bool.not_eq_true _ ▸ hu)).trans (if_pos hl)

theorem pushUnit_unit {u : Nat} (h : p.half = none) (hu : isHigh u = false) (hl : isLow u = false) :
    p.pushUnit u = ⟨Char.ofNat u :: p.read, none⟩ :=
  ((if_neg (Bool.not_eq_true _ ▸ hu)).trans (if_neg (Bool.not_eq_true _ ▸ hl))).trans (push_of_none h _)

end Pending

theorem spells_of_stringTail (h : stringTail p cs = some (s, rest))
    (hpaired : arePaired p.half.isSome (escapedUnits cs) = true) : ∃ body xs, cs = body ++ '\x22' :: rest ∧
      s.toList = p.read.reverse ++ xs ∧ Spells p.half body xs := by
  fun_induction stringTail p cs with
  | case1 p cs =>
    cases h
    rw [escapedUnits_plain (by decide), arePaired_zero] at hpaired
    refine ⟨[], [], rfl, by simp [Pending.flush, hpaired.1], ?_⟩
    rw [hpaired.1]
    exact .done
  | case2 p a b c d cs u hu ih =>
    rw [escapedUnits_escape hu] at hpaired
    rcases arePaired_unit hpaired with ⟨hhalf, hhigh, hrest⟩ | ⟨n, hhalf, hhigh, hlow, hrest⟩ |
      ⟨hhalf, hhigh, hlow, hrest⟩
    · rw [Pending.pushUnit_high hhalf hhigh] at ih h
      obtain ⟨body, xs, rfl, hs, hspells⟩ := ih h hrest
      rw [hhalf]
      exact ⟨'\\' :: 'u' :: a :: b :: c :: d :: body, xs, rfl, hs, .high hu hhigh hspells⟩
    · rw [Pending.pushUnit_low hhalf hhigh hlow] at ih h
      obtain ⟨body, xs, rfl, hs, hspells⟩ := ih h hrest
      rw [hhalf]
      exact ⟨'\\' :: 'u' :: a :: b :: c :: d :: body, _ :: xs, rfl, by simpa using hs, .low hu hlow hspells⟩
    · rw [Pending.pushUnit_unit hhalf hhigh hlow] at ih h
      obtain ⟨body, xs, rfl, hs, hspells⟩ := ih h hrest
      rw [hhalf]
      exact ⟨'\\' :: 'u' :: a :: b :: c :: d :: body, _ :: xs, rfl, by simpa using hs, .unit hu hhigh hlow hspells⟩
  | case3 => cases h
  | case4 p c cs hc e he ih =>
    have hletter : c ≠ 'u' := by
      rintro rfl
      cases he
    rw [escapedUnits_letter hletter, arePaired_zero] at hpaired
    rw [Pending.push_of_none hpaired.1] at ih h
    obtain ⟨body, xs, rfl, hs, hspells⟩ := ih h hpaired.2
    rw [hpaired.1]
    exact ⟨'\\' :: c :: body, e :: xs, rfl, by simpa using hs, .letter he hspells⟩
  | case5 => cases h
  | case6 p c cs hquote hescape hletter hc ih =>
    have hslash : c ≠ '\\' := by
      rintro rfl
      cases cs with
      | nil => cases h
      | cons c cs => exact hletter c cs rfl rfl
    rw [escapedUnits_plain hslash, arePaired_zero] at hpaired
    rw [Pending.push_of_none hpaired.1] at ih h
    obtain ⟨body, xs, rfl, hs, hspells⟩ := ih h hpaired.2
    rw [hpaired.1]
    exact ⟨c :: body, c :: xs, rfl, by simpa using hs, .plain hquote hslash hc hspells⟩
  | case7 => cases h
  | case8 => cases h

end Json

namespace Web

/-- No byte sequence of the form that UTF-8 has for characters stands for half of a pair. -/
def noHalves : List UInt8 → Bool
  | a :: b :: bytes => !(a = 0xED && 0xA0 ≤ b) && noHalves (b :: bytes)
  | _ => true

/-- The numbers of four bytes each. -/
def wideUnits (bigEndian : Bool) : List UInt8 → List Nat
  | a :: b :: c :: d :: rest =>
    (if bigEndian then [a, b, c, d] else [d, c, b, a]).foldl (fun n x => n * 256 + x.toNat) 0 ::
      wideUnits bigEndian rest
  | _ => []

/-- No half of a pair stands alone in the bytes of a text. -/
def bytesPaired (bytes : List UInt8) : Bool :=
  match detect bytes with
  | (.utf8, _) => noHalves bytes
  | (.utf16 big, mark) => (units big (bytes.drop mark)).all (Json.arePaired false)
  | (.utf32 big, mark) => (wideUnits big (bytes.drop mark)).all fun n => !isHigh n && !isLow n

/-- Where the body is JSON, no half of a pair stands alone in it, be it escaped or not. -/
def Request.isPaired (q : Request) : Bool :=
  !isJsonType (mediaType q.contentType) || bytesPaired q.body.toList && (bodyText? q.body).all Json.isPaired

theorem noHalves_cons {a : UInt8} (h : a ≠ 0xED) (bytes : List UInt8) : noHalves (a :: bytes) = noHalves bytes := by
  cases bytes with
  | nil => rfl
  | cons b bytes => rw [noHalves, decide_eq_false h, Bool.false_and, Bool.not_false, Bool.true_and]

theorem noHalves_cons_cons {a b : UInt8} (h : b < 0xA0) (bytes : List UInt8) :
    noHalves (a :: b :: bytes) = noHalves (b :: bytes) := by
  rw [noHalves, decide_eq_false (UInt8.not_le.2 h), Bool.and_false, Bool.not_false, Bool.true_and]

theorem noHalves_utf8EncodeChar (c : Char) (bytes : List UInt8) :
    noHalves (String.utf8EncodeChar c ++ bytes) = noHalves bytes := by
  have hne : ∀ n, n < 256 → n ≠ 0xED → UInt8.ofNat n ≠ 0xED := by
    intro n hlt hne heq
    have hnat := congrArg UInt8.toNat heq
    rw [UInt8.toNat_ofNat', Nat.mod_eq_of_lt hlt] at hnat
    exact hne hnat
  have hlow : ∀ n, n < 0xA0 → UInt8.ofNat n < 0xA0 := by
    intro n hlt
    rw [UInt8.lt_iff_toNat_lt, UInt8.toNat_ofNat', Nat.mod_eq_of_lt (by omega)]
    exact hlt
  have hvalid : c.val.toNat < 0xD800 ∨ 0xDFFF < c.val.toNat := c.valid.imp id And.left
  unfold String.utf8EncodeChar
  dsimp only
  split
  · exact noHalves_cons (hne _ (by omega) (by omega)) _
  · split
    · exact (noHalves_cons (hne _ (by omega) (by omega)) _).trans (noHalves_cons (hne _ (by omega) (by omega)) _)
    · split
      · refine Eq.trans ?_ ((noHalves_cons (hne (c.val.toNat / 64 % 64 + 128) (by omega) (by omega)) _).trans
          (noHalves_cons (hne (c.val.toNat % 64 + 128) (by omega) (by omega)) _))
        -- The first byte is the one of the halves only where the character stands before them.
        by_cases hfirst : c.val.toNat / 4096 % 16 + 224 = 0xED
        · exact noHalves_cons_cons (hlow (c.val.toNat / 64 % 64 + 128) (by omega)) _
        · exact noHalves_cons (hne _ (by omega) hfirst) _
      · exact ((noHalves_cons (hne _ (by omega) (by omega)) _).trans
          (noHalves_cons (hne _ (by omega) (by omega)) _)).trans
          ((noHalves_cons (hne _ (by omega) (by omega)) _).trans (noHalves_cons (hne _ (by omega) (by omega)) _))

theorem noHalves_utf8 (cs : List Char) : noHalves (cs.flatMap String.utf8EncodeChar) = true := by
  induction cs with
  | nil => rfl
  | cons c cs ih => rw [List.flatMap_cons, noHalves_utf8EncodeChar, ih]

theorem isPaired_of_text {q : Request} {ms : Members} (hbody : q.body = ((Json.obj ms).toPretty .unicode).toUTF8)
    (hms : ms ≠ []) (hplain : '\\' ∉ Json.prettyAt .unicode 0 (.obj ms)) : q.isPaired = true := by
  have hbytes : bytesPaired q.body.toList = true := by
    rw [bytesPaired, hbody, detect_object hms]
    dsimp only
    rw [Json.toPretty, toList_toUTF8]
    exact noHalves_utf8 _
  have htext : (bodyText? q.body).all Json.isPaired = true := by
    rw [hbody, bodyText_object hms, Option.all_some, Json.isPaired, Json.toPretty, String.toList_ofList]
    exact Json.arePaired_of_plain hplain
  rw [Request.isPaired, hbytes, htext, Bool.and_self, Bool.or_true]

end Web

end Provision
