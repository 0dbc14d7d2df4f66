import Provision.Decimal.Text
import Provision.Json.Basic

/-! # Reading JSON

A text is read token by token into a machine with a stack of open containers, so the nesting of
the value costs no nesting of calls. Every token is at least one character, which bounds the run.

`Json.read` is the entry point. It refuses texts that are no JSON, integers with too many digits
and containers nested too deep; of several faults the first in the text is reported. -/

namespace Provision.Json

inductive ReadFault where
  | malformed
  | tooManyDigits
  | tooDeep
  deriving DecidableEq, Repr

/-- Bounds on what is read; `none` is no bound on the digits of an integer. -/
structure Limits where
  depth : Nat
  digits : Option Nat

/-- The bounds where so many calls may be made inside each other: each container takes one. -/
def Limits.within (calls : Nat) : Limits := ⟨calls, some digitLimit⟩

abbrev Limits.standard : Limits := .within freeCalls

inductive Token where
  | openArray
  | closeArray
  | openObject
  | closeObject
  | comma
  | colon
  | str (s : String)
  | integer (negative : Bool) (digits : List Char)
  | scalar (v : Json)
  deriving BEq

def isSpace (c : Char) : Bool :=
  c == ' ' || c == '\t' || c == '\n' || c == '\r'

def hexValue? (c : Char) : Option Nat :=
  if c.isDigit then some (c.toNat - 48)
  else if 'a' ≤ c && c ≤ 'f' then some (c.toNat - 87)
  else if 'A' ≤ c && c ≤ 'F' then some (c.toNat - 55)
  else none

def hex4? (a b c d : Char) : Option Nat := do
  let a ← hexValue? a
  let b ← hexValue? b
  let c ← hexValue? c
  let d ← hexValue? d
  return ((a * 16 + b) * 16 + c) * 16 + d

/-- What a backslash and this character stand for. -/
def escaped? (c : Char) : Option Char :=
  match c with
  | '\x22' => some '\x22'
  | '\\' => some '\\'
  | '/' => some '/'
  | 'b' => some '\x08'
  | 'f' => some '\x0c'
  | 'n' => some '\n'
  | 'r' => some '\r'
  | 't' => some '\t'
  | _ => none

/-- Stands for half of a surrogate pair without the other half. -/
def replacement : Char := Char.ofNat 0xFFFD

/-- The text read so far, in reverse, and the first half of a surrogate pair if one was read
last. -/
structure Pending where
  read : List Char
  half : Option Nat

def Pending.flush (p : Pending) : List Char :=
  match p.half with
  | none => p.read
  | some _ => replacement :: p.read

def Pending.push (p : Pending) (c : Char) : Pending :=
  ⟨c :: p.flush, none⟩

def Pending.pushUnit (p : Pending) (u : Nat) : Pending :=
  if 0xD800 ≤ u && u < 0xDC00 then ⟨p.flush, some u⟩
  else if 0xDC00 ≤ u && u < 0xE000 then
    match p.half with
    | some h => ⟨Char.ofNat (0x10000 + (h - 0xD800) * 0x400 + (u - 0xDC00)) :: p.read, none⟩
    | none => ⟨replacement :: p.read, none⟩
  else p.push (Char.ofNat u)

/-- Reads a string after its opening quote, up to and with the closing one. -/
def stringTail (p : Pending) : List Char → Option (String × List Char)
  | '\x22' :: cs => some (String.ofList p.flush.reverse, cs)
  | '\\' :: 'u' :: a :: b :: c :: d :: cs =>
    match hex4? a b c d with
    | some u => stringTail (p.pushUnit u) cs
    | none => none
  | '\\' :: c :: cs =>
    match escaped? c with
    | some e => stringTail (p.push e) cs
    | none => none
  | c :: cs => if ' ' ≤ c then stringTail (p.push c) cs else none
  | [] => none

/-- The digits at the start of a text, and the rest. -/
def digits (cs : List Char) : List Char × List Char :=
  (cs.takeWhile Char.isDigit, cs.dropWhile Char.isDigit)

/-- A point and the digits after it, where there are any. -/
def fractionDigits : List Char → List Char × List Char
  | '.' :: cs => if (digits cs).1.isEmpty then ([], '.' :: cs) else digits cs
  | cs => ([], cs)

/-- Whether a text begins with a minus, and what follows its sign. -/
def sign : List Char → Bool × List Char
  | '-' :: cs => (true, cs)
  | '+' :: cs => (false, cs)
  | cs => (false, cs)

/-- The exponent at the start of a text, where there is a complete one. -/
def exponent? : List Char → Option (Int × List Char)
  | e :: cs =>
    if e == 'e' || e == 'E' then
      let ds := digits (sign cs).2
      if ds.1.isEmpty then none
      else
        let n : Int := Decimal.digitsValue ds.1
        some (if (sign cs).1 then -n else n, ds.2)
    else none
  | [] => none

/-- The digits before the point: a zero alone, or digits that do not begin with zero. -/
def wholeDigits : List Char → List Char × List Char
  | '0' :: cs => (['0'], cs)
  | cs => digits cs

/-- A number after its sign. -/
def number? (negative : Bool) (cs : List Char) : Option (Token × List Char) :=
  let (whole, rest) := wholeDigits cs
  if whole.isEmpty then none
  else
    let (fraction, rest) := fractionDigits rest
    let float (e : Int) : Token :=
      .scalar (.float (Decimal.Literal.toFloat ⟨negative, whole ++ fraction, e - fraction.length⟩))
    match exponent? rest with
    | some (e, rest) => some (float e, rest)
    | none =>
      if fraction.isEmpty then some (.integer negative whole, rest) else some (float 0, rest)

/-- The words among the values, with the values they stand for. -/
def namedValues : List (String × Json) :=
  [("null", .null), ("true", .bool true), ("false", .bool false),
    ("NaN", .float (0.0 / 0.0)), ("Infinity", .float (1.0 / 0.0)),
    ("-Infinity", .float (-1.0 / 0.0))]

def named? (cs : List Char) : Option (Token × List Char) :=
  namedValues.findSome? fun (word, value) =>
    if word.toList.isPrefixOf cs then some (.scalar value, cs.drop word.length) else none

def punctuation? (c : Char) : Option Token :=
  match c with
  | '[' => some .openArray
  | ']' => some .closeArray
  | '\x7b' => some .openObject
  | '\x7d' => some .closeObject
  | ',' => some .comma
  | ':' => some .colon
  | _ => none

/-- The first token of a text that does not begin with a space. -/
def tokenAt? (c : Char) (cs : List Char) : Option (Token × List Char) :=
  match punctuation? c, named? (c :: cs) with
  | some t, _ => some (t, cs)
  | none, some t => some t
  | none, none =>
    if c == '\x22' then (stringTail ⟨[], none⟩ cs).map fun (s, rest) => (.str s, rest)
    else if c == '-' then number? true cs
    else number? false (c :: cs)

/-! ### The machine -/

/-- A container that is being read: what it holds so far, in reverse for an array. -/
inductive Frame where
  | items (done : List Json)
  | members (done : Members) (key : String)

inductive State where
  | value (stack : List Frame)
  | firstItem (stack : List Frame)
  | afterItem (done : List Json) (stack : List Frame)
  | firstKey (stack : List Frame)
  | key (done : Members) (stack : List Frame)
  | colon (done : Members) (key : String) (stack : List Frame)
  | afterMember (done : Members) (stack : List Frame)
  | finished (v : Json)

/-- A value is complete: it joins the innermost open container. -/
def complete (v : Json) : List Frame → State
  | [] => .finished v
  | .items done :: stack => .afterItem (v :: done) stack
  | .members done key :: stack => .afterMember (put key v done) stack

/-- A token where a value has to stand. -/
def startValue (limits : Limits) (stack : List Frame) : Token → Except ReadFault State
  | .str s => .ok (complete (.str s) stack)
  | .scalar v => .ok (complete v stack)
  | .integer negative ds =>
    if limits.digits.any (· < ds.length) then .error .tooManyDigits
    else
      let n : Int := Decimal.digitsValue ds
      .ok (complete (.int (if negative then -n else n)) stack)
  | .openArray => if stack.length < limits.depth then .ok (.firstItem stack) else .error .tooDeep
  | .openObject => if stack.length < limits.depth then .ok (.firstKey stack) else .error .tooDeep
  | _ => .error .malformed

def step (limits : Limits) : State → Token → Except ReadFault State
  | .value stack, t => startValue limits stack t
  | .firstItem stack, .closeArray => .ok (complete (.arr []) stack)
  | .firstItem stack, t => startValue limits (.items [] :: stack) t
  | .afterItem done stack, .comma => .ok (.value (.items done :: stack))
  | .afterItem done stack, .closeArray => .ok (complete (.arr done.reverse) stack)
  | .firstKey stack, .closeObject => .ok (complete (.obj []) stack)
  | .firstKey stack, .str k => .ok (.colon [] k stack)
  | .key done stack, .str k => .ok (.colon done k stack)
  | .colon done k stack, .colon => .ok (.value (.members done k :: stack))
  | .afterMember done stack, .comma => .ok (.key done stack)
  | .afterMember done stack, .closeObject => .ok (complete (.obj done) stack)
  | _, _ => .error .malformed

theorem length_dropWhile_le {α : Type} (p : α → Bool) (xs : List α) :
    (xs.dropWhile p).length ≤ xs.length :=
  (List.dropWhile_sublist p).length_le

theorem length_takeWhile_add_dropWhile {α : Type} (p : α → Bool) (xs : List α) :
    (xs.takeWhile p).length + (xs.dropWhile p).length = xs.length := by
  rw [← List.length_append, List.takeWhile_append_dropWhile]

theorem length_of_stringTail {p : Pending} {cs rest : List Char} {s : String}
    (h : stringTail p cs = some (s, rest)) : rest.length < cs.length := by
  fun_induction stringTail p cs with
  | case1 p cs => simp at h; simp [h.2]
  | case2 p a b c d cs u hu ih => have := ih h; simp; omega
  | case3 => simp at h
  | case4 p c cs hc e he ih => have := ih h; simp; omega
  | case5 => simp at h
  | case6 p c cs h1 h2 h3 hle ih => have := ih h; simp; omega
  | case7 => simp at h
  | case8 => simp at h

theorem length_fractionDigits_le (cs : List Char) :
    (fractionDigits cs).2.length ≤ cs.length := by
  unfold fractionDigits
  split
  · split
    · simp
    · have := length_dropWhile_le Char.isDigit
      simp [digits]; exact Nat.le_succ_of_le (this _)
  · simp

theorem length_sign_le (cs : List Char) : (sign cs).2.length ≤ cs.length := by
  unfold sign; split <;> simp

theorem length_of_exponent {cs rest : List Char} {e : Int} (h : exponent? cs = some (e, rest)) :
    rest.length ≤ cs.length := by
  unfold exponent? at h
  split at h
  · rename_i c cs
    have hd := length_dropWhile_le Char.isDigit (sign cs).2
    have hs := length_sign_le cs
    split at h
    · simp only at h
      split at h
      · cases h
      · simp only [Option.some.injEq, Prod.mk.injEq, digits] at h
        obtain ⟨-, rfl⟩ := h
        simp only [List.length_cons]
        omega
    · cases h
  · cases h

theorem length_wholeDigits {cs : List Char} (h : (wholeDigits cs).1.isEmpty = false) :
    (wholeDigits cs).2.length < cs.length := by
  unfold wholeDigits at h ⊢
  split at h
  · simp
  · have := length_takeWhile_add_dropWhile Char.isDigit cs
    simp only [digits] at h ⊢
    have : (cs.takeWhile Char.isDigit).length ≠ 0 := by
      intro h0
      simp [List.length_eq_zero_iff.1 h0] at h
    omega

theorem length_of_number {negative : Bool} {cs rest : List Char} {t : Token}
    (h : number? negative cs = some (t, rest)) : rest.length < cs.length := by
  unfold number? at h
  simp only at h
  split at h
  · cases h
  · rename_i hw
    have hw := length_wholeDigits (by simpa using hw)
    have hf := length_fractionDigits_le (wholeDigits cs).2
    split at h
    · rename_i he
      have := length_of_exponent he
      cases h
      omega
    · split at h <;> (cases h; omega)

theorem length_of_named {cs rest : List Char} {t : Token} (hne : cs ≠ [])
    (h : named? cs = some (t, rest)) : rest.length < cs.length := by
  obtain ⟨⟨word, value⟩, hm, hw⟩ := List.exists_of_findSome?_eq_some h
  simp only at hw
  split at hw
  · simp only [Option.some.injEq, Prod.mk.injEq] at hw
    obtain ⟨-, rfl⟩ := hw
    have hl : 0 < word.length := by
      simp only [namedValues, List.mem_cons, Prod.mk.injEq, List.not_mem_nil, or_false] at hm
      rcases hm with h | h | h | h | h | h <;> (obtain ⟨rfl, -⟩ := h; decide)
    have : 0 < cs.length := List.length_pos_iff.2 hne
    simp only [List.length_drop]
    omega
  · cases hw

theorem length_of_tokenAt {c : Char} {cs rest : List Char} {t : Token}
    (h : tokenAt? c cs = some (t, rest)) : rest.length < cs.length + 1 := by
  unfold tokenAt? at h
  split at h
  · cases h; omega
  · rename_i hn
    cases h
    exact length_of_named (by simp) hn
  · split at h
    · obtain ⟨⟨s, r⟩, hs, hr⟩ := Option.map_eq_some_iff.1 h
      cases hr
      exact Nat.lt_succ_of_lt (length_of_stringTail hs)
    · split at h
      · exact Nat.lt_succ_of_lt (length_of_number h)
      · exact length_of_number h

/-- Feeds the tokens of a text to the machine. -/
def run (limits : Limits) (state : State) (text : List Char) : Except ReadFault Json :=
  match _hd : text.dropWhile isSpace with
  | [] =>
    match state with
    | .finished v => .ok v
    | _ => .error .malformed
  | c :: cs =>
    match _ht : tokenAt? c cs with
    | none => .error .malformed
    | some (t, rest) =>
      match step limits state t with
      | .error f => .error f
      | .ok next => run limits next rest
termination_by text.length
decreasing_by
  have h1 := length_of_tokenAt _ht
  have h2 := length_dropWhile_le isSpace text
  rw [_hd, List.length_cons] at h2
  omega

/-- The value a text stands for. -/
def read (limits : Limits) (text : String) : Except ReadFault Json :=
  run limits (.value []) text.toList

end Provision.Json
