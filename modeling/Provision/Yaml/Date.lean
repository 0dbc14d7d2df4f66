import Provision.Decimal.Text
import Provision.Timestamp
import Provision.Yaml.Basic

/-! # Dates in settings

The forms of dates, with a time of day and a zone or without, and what makes one impossible. A date
may be followed by one line break. -/

namespace Provision.Yaml

/-- A text without a line break at its end. -/
def withoutBreak (cs : List Char) : List Char :=
  if cs.getLast? = some '\n' then cs.dropLast else cs

namespace Date

structure Parts where
  year : Nat
  month : Nat
  day : Nat
  /-- Hour, minute and second, where a time is given. -/
  time : Option (Nat × Nat × Nat) := none
  /-- Minutes from UTC, where a zone is given. -/
  offset : Option Int := none

def digits? (least most : Nat) (cs : List Char) : Option (Nat × List Char) :=
  let ds := (cs.takeWhile Char.isDigit).take most
  if ds.length < least then none else some (Decimal.digitsValue ds, cs.drop ds.length)

def isBlank (c : Char) : Bool :=
  c = ' ' || c = '\t'

/-- A zone, and nothing behind it. -/
def offset? (cs : List Char) : Option (Option Int) :=
  match cs.dropWhile isBlank with
  | [] => if cs.isEmpty then some none else none
  | ['Z'] => some (some 0)
  | s :: cs => do
    let sign : Int ← if s = '+' then some 1 else if s = '-' then some (-1) else none
    let (h, cs) ← digits? 1 2 cs
    match cs with
    | [] => return some (sign * (h * 60 : Nat))
    | ':' :: cs =>
      let (m, cs) ← digits? 2 2 cs
      if cs.isEmpty then return some (sign * (h * 60 + m : Nat)) else none
    | _ => none

/-- A time of day behind a letter or blanks, with a fraction that does not count here. -/
def time? (cs : List Char) : Option ((Nat × Nat × Nat) × Option Int) := do
  let cs ←
    match cs with
    | 'T' :: r => some r
    | 't' :: r => some r
    | c :: r => if isBlank c then some (r.dropWhile isBlank) else none
    | [] => none
  let (h, cs) ← digits? 1 2 cs
  let (m, cs) ← digits? 2 2 (← Timestamp.char? ':' cs)
  let (s, cs) ← digits? 2 2 (← Timestamp.char? ':' cs)
  let cs :=
    match cs with
    | '.' :: r => r.dropWhile Char.isDigit
    | _ => cs
  return ((h, m, s), ← offset? cs)

/-- A date, or a date and a time. -/
def parts? (cs : List Char) : Option Parts := do
  let (y, cs) ← digits? 4 4 cs
  let (m, cs) ← digits? 1 2 (← Timestamp.char? '-' cs)
  let (d, cs) ← digits? 1 2 (← Timestamp.char? '-' cs)
  if cs.isEmpty then return ⟨y, m, d, none, none⟩
  else
    let (time, offset) ← time? cs
    return ⟨y, m, d, some time, offset⟩

/-- Whether a plain scalar is taken for a date: without a time its month and day have two digits. -/
def looksLikeDate (cs : List Char) : Bool :=
  match parts? cs with
  | some p => p.time.isSome || cs.length = 10
  | none => false

/-- A day or more, as days and seconds. -/
def spanText (minutes : Int) : String :=
  let seconds := minutes % 1440 * 60
  "datetime.timedelta(days=" ++ Decimal.intText (minutes / 1440) ++
    (if seconds = 0 then "" else ", seconds=" ++ Decimal.intText seconds) ++ ")"

def offsetMessage (minutes : Int) : String :=
  "offset must be a timedelta strictly between -timedelta(hours=24) and timedelta(hours=24)" ++
    ", not " ++ spanText minutes ++ "."

def zoneComplaint? (offset : Option Int) : Option String :=
  offset.bind fun o => if 1440 ≤ o.natAbs then some (offsetMessage o) else none

/-- What is wrong with the date and the time. -/
def clockComplaint? (p : Parts) : Option String :=
  if p.year = 0 then some "year 0 is out of range"
  else if p.month = 0 || 12 < p.month then some "month must be in 1..12"
  else if p.day = 0 || daysInMonth p.year p.month < p.day then
    some "day is out of range for month"
  else
    match p.time with
    | none => none
    | some (h, m, s) =>
      if 24 ≤ h then some "hour must be in 0..23"
      else if 60 ≤ m then some "minute must be in 0..59"
      else if 60 ≤ s then some "second must be in 0..59"
      else none

/-- The kind of moment that a text stands for: a date, or a date and a time. -/
def value (cs : List Char) : Except Fault Yaml :=
  match parts? (withoutBreak cs) with
  | none => .error .badTimestamp
  | some p =>
    match (zoneComplaint? p.offset).or (clockComplaint? p), p.time with
    | some reason, _ => .error (.badMoment reason)
    | none, some _ => .ok .dateTime
    | none, none => .ok .date

end Date

end Provision.Yaml
