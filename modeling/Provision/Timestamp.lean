import Provision.Decimal.Text

/-! # Points in time

A timestamp is a calendar date with a time of day and, where one is known, the distance from UTC in
minutes. `Timestamp.read` and `Timestamp.text` are the stored form. -/

namespace Provision

def isLeapYear (y : Nat) : Bool :=
  y % 4 == 0 && (y % 100 != 0 || y % 400 == 0)

def daysInMonth (y m : Nat) : Nat :=
  if m == 2 then if isLeapYear y then 29 else 28
  else if m == 4 || m == 6 || m == 9 || m == 11 then 30
  else 31

/-- A moment as it is written; `offset` is absent from times that name no zone. -/
structure Clock where
  year : Nat
  month : Nat
  day : Nat
  hour : Nat
  minute : Nat
  second : Nat
  micro : Nat
  offset : Option Int
  deriving DecidableEq, Repr

namespace Clock

/-- Whether the fields name a moment, the year aside. -/
def isRegular (c : Clock) : Bool :=
  1 ≤ c.month && c.month ≤ 12 && 1 ≤ c.day && c.day ≤ daysInMonth c.year c.month &&
    c.hour < 24 && c.minute < 60 && c.second < 60 && c.micro < 1000000 &&
    c.offset.all fun o => -1440 < o && o < 1440

def isValid (c : Clock) : Bool :=
  1 ≤ c.year && c.year ≤ 9999 && c.isRegular

end Clock

structure Timestamp where
  clock : Clock
  valid : clock.isValid = true
  deriving DecidableEq

namespace Timestamp

def ofClock? (c : Clock) : Option Timestamp :=
  if h : c.isValid = true then some ⟨c, h⟩ else none

/-- The first moment of 1970 in UTC. -/
def epoch : Timestamp :=
  ⟨⟨1970, 1, 1, 0, 0, 0, 0, some 0⟩, by decide⟩

instance : Inhabited Timestamp := ⟨epoch⟩

/-- Days from the first of March of year 0 to a date, counting years from March. -/
def dayNumber (year month day : Nat) : Int :=
  let y : Int := if month ≤ 2 then (year : Int) - 1 else year
  let m : Int := ((month : Int) + 9) % 12
  365 * y + y / 4 - y / 100 + y / 400 + (153 * m + 2) / 5 + (day : Int) - 1

def epochDay : Int := 719468

/-- The date on a day counted from 1970. -/
def civil (day : Int) : Int × Nat × Nat :=
  let z := day + epochDay
  let era := z / 146097
  let doe := z % 146097
  let yoe := (doe - doe / 1460 + doe / 36524 - doe / 146096) / 365
  let doy := doe - (365 * yoe + yoe / 4 - yoe / 100)
  let mp := (5 * doy + 2) / 153
  let m := if mp < 10 then mp + 3 else mp - 9
  (yoe + era * 400 + (if m ≤ 2 then 1 else 0), m.toNat, (doy - (153 * mp + 2) / 5 + 1).toNat)

/-- Seconds since 1970, for the wall clock as it stands. -/
def wallSeconds (c : Clock) : Int :=
  (dayNumber c.year c.month c.day - epochDay) * 86400 +
    (c.hour * 3600 + c.minute * 60 + c.second : Nat)

/-- The moment so many seconds after 1970, in UTC. -/
def ofSeconds? (seconds : Int) (micro : Nat) : Option Timestamp :=
  let (y, m, d) := civil (seconds / 86400)
  let s := (seconds % 86400).toNat
  if y < 0 then none
  else ofClock? ⟨y.toNat, m, d, s / 3600, s / 60 % 60, s % 60, micro, some 0⟩

/-- The same moment on the clock of UTC; a clock without a zone is taken to show UTC. -/
def toUtc (t : Timestamp) : Timestamp :=
  (ofSeconds? (wallSeconds t.clock - 60 * t.clock.offset.getD 0) t.clock.micro).getD t

/-- `n` with zeros in front up to a width. -/
def padded (width n : Nat) : List Char :=
  let ds := Nat.toDigits 10 n
  Decimal.zeros (width - ds.length) ++ ds

def dateText (c : Clock) : List Char :=
  padded 4 c.year ++ '-' :: padded 2 c.month ++ '-' :: padded 2 c.day

def timeText (c : Clock) : List Char :=
  padded 2 c.hour ++ ':' :: padded 2 c.minute ++ ':' :: padded 2 c.second

def offsetText (minutes : Int) : List Char :=
  (if minutes < 0 then '-' else '+') ::
    padded 2 (minutes.natAbs / 60) ++ ':' :: padded 2 (minutes.natAbs % 60)

/-- Date, time and the fraction of a second, which is left out when it is zero. -/
def localText (c : Clock) : List Char :=
  dateText c ++ 'T' :: timeText c ++ (if c.micro = 0 then [] else '.' :: padded 6 c.micro)

/-- The stored form: `Z` for UTC. -/
def text (t : Timestamp) : String :=
  String.ofList (localText t.clock ++
    match t.clock.offset with
    | none => []
    | some 0 => ['Z']
    | some o => offsetText o)

/-! ### Reading -/

inductive Reading where
  | ok (t : Timestamp)
  /-- A moment of the year zero, which is well written but no date. -/
  | yearZero
  | malformed
  deriving DecidableEq

/-- Reads exactly `n` digits. -/
def digits? : Nat → List Char → Option (Nat × List Char)
  | n, cs =>
    let ds := cs.take n
    if ds.length = n && ds.all Char.isDigit then some (Decimal.digitsValue ds, cs.drop n) else none

/-- Skips a character that has to stand there. -/
def char? (c : Char) : List Char → Option (List Char)
  | d :: cs => if c = d then some cs else none
  | [] => none

def date? (cs : List Char) : Option ((Nat × Nat × Nat) × List Char) := do
  let (y, cs) ← digits? 4 cs
  let (m, cs) ← digits? 2 (← char? '-' cs)
  let (d, cs) ← digits? 2 (← char? '-' cs)
  return ((y, m, d), cs)

/-- Microseconds from the digits of a fraction; digits past the sixth are dropped. -/
def microOf (ds : List Char) : Nat :=
  Decimal.digitsValue (ds.take 6) * Nat.pow 10 (6 - ds.length)

/-- Seconds and their fraction; a time may end after the minutes. -/
def seconds? : List Char → Option ((Nat × Nat) × List Char)
  | ':' :: cs => do
    let (s, cs) ← digits? 2 cs
    match cs with
    | c :: cs' =>
      if c = '.' || c = ',' then
        let ds := cs'.takeWhile Char.isDigit
        if ds.isEmpty then none else some ((s, microOf ds), cs'.dropWhile Char.isDigit)
      else some ((s, 0), cs)
    | [] => some ((s, 0), cs)
  | cs => some ((0, 0), cs)

def optionalColon : List Char → List Char
  | ':' :: cs => cs
  | cs => cs

/-- The rest of a text as an offset: nothing, `Z`, or signed hours and minutes. -/
def offset? : List Char → Option (Option Int)
  | [] => some none
  | ['Z'] => some (some 0)
  | ['z'] => some (some 0)
  | c :: cs => do
    let sign : Int ← if c = '+' then some 1 else if c = '-' || c = '−' then some (-1) else none
    let (h, cs) ← digits? 2 cs
    let (m, cs) ← digits? 2 (optionalColon cs)
    if cs.isEmpty && m < 60 then some (some (sign * (h * 60 + m : Nat))) else none

def isDateTimeSeparator (c : Char) : Bool :=
  c = 'T' || c = 't' || c = ' ' || c = '_'

/-- A date alone is midnight in no zone. -/
def clock? (cs : List Char) : Option Clock := do
  let ((y, mo, d), cs) ← date? cs
  match cs with
  | [] => return ⟨y, mo, d, 0, 0, 0, 0, none⟩
  | c :: cs =>
    if isDateTimeSeparator c then
      let (h, cs) ← digits? 2 cs
      let (mi, cs) ← digits? 2 (← char? ':' cs)
      let ((s, us), cs) ← seconds? cs
      return ⟨y, mo, d, h, mi, s, us, ← offset? cs⟩
    else none

/-- Counts of this size and less are seconds, larger ones milliseconds. -/
def largestSeconds : Nat := 20000000000

/-- The moment so many seconds and microseconds after 1970. -/
def ofMicros (seconds : Int) (micro : Nat) : Reading :=
  let s := seconds + micro / 1000000
  match ofSeconds? s (micro % 1000000) with
  | some t => .ok t
  | none => if (civil (s / 86400)).1 = 0 then .yearZero else .malformed

/-- The moment that a whole number counts to. -/
def ofUnix (n : Int) : Reading :=
  if n.natAbs ≤ largestSeconds then ofMicros n 0 else ofMicros (n / 1000) (n % 1000 * 1000).toNat

/-- The moment that a number counts to: what is left of a second, or of a millisecond, is rounded
to microseconds. Larger numbers than the bound below count to no year. -/
def ofFloat (x : Float) : Reading :=
  if x.isNaN || 1e17 < x.abs then .malformed
  else
    let whole := x.floor
    let n : Int := if whole < 0 then -((-whole).toUInt64.toNat : Int) else whole.toUInt64.toNat
    let micros (unit : Float) : Nat := ((x - whole) * unit).round.toUInt64.toNat
    if x.abs ≤ Float.ofNat largestSeconds then ofMicros n (micros 1000000.0)
    else ofMicros (n / 1000) ((n % 1000 * 1000).toNat + micros 1000.0)

/-- The power of ten behind a number; nothing stands for the power zero. -/
def exponent? : List Char → Option Int
  | [] => some 0
  | c :: cs =>
    let (negative, ds) := Decimal.signed cs
    if (c = 'e' || c = 'E') && !ds.isEmpty && ds.all Char.isDigit then
      some (if negative then -(Decimal.digitsValue ds : Int) else Decimal.digitsValue ds)
    else none

/-- A count in decimal digits. One with a point may have a power of ten and is read as the nearest
number there is; one without is exact. -/
def ofCount? (cs : List Char) : Option Reading :=
  let (negative, cs) := Decimal.signed cs
  let whole := cs.takeWhile Char.isDigit
  match cs.dropWhile Char.isDigit with
  | [] =>
    let n : Int := Decimal.digitsValue whole
    if whole.isEmpty then none else some (ofUnix (if negative then -n else n))
  | c :: cs =>
    let fraction := cs.takeWhile Char.isDigit
    if c ≠ '.' || (whole ++ fraction).isEmpty then none
    else (exponent? (cs.dropWhile Char.isDigit)).map fun e =>
      ofFloat (Decimal.Literal.toFloat ⟨negative, whole ++ fraction, e - fraction.length⟩)

/-- A text is a date, a date and time, or a count of seconds or milliseconds since 1970. -/
def read (s : String) : Reading :=
  match clock? s.toList with
  | some c =>
    if c.isRegular then
      match ofClock? c with
      | some t => .ok t
      | none => .yearZero
    else .malformed
  | none => (ofCount? s.toList).getD .malformed

end Timestamp

end Provision
