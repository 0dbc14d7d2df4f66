import Provision.Timestamp

/-! # Moments as people write them

A moment is a timestamp whose distance from UTC may have seconds and fractions of one. `Moment.text`
is the form printed in generated scripts. `Moment.read?` reads the forms of ISO 8601: dates by month
or by week, with or without dashes, and behind one character a time with or without colons. -/

namespace Provision

structure Moment where
  time : Timestamp
  /-- What the offset has beyond whole minutes, in microseconds. -/
  rest : Int := 0

namespace Moment

def ofTimestamp (t : Timestamp) : Moment := ⟨t, 0⟩

/-- Microseconds in a minute. -/
def minute : Nat := 60000000

/-- Hours and minutes, and what is below a minute where there is something. -/
def offsetText (minutes rest : Int) : List Char :=
  let total := minutes * minute + rest
  let n := total.natAbs
  let second := n / 1000000 % 60
  let micro := n % 1000000
  (if total < 0 then '-' else '+') ::
    Timestamp.padded 2 (n / minute / 60) ++ ':' :: Timestamp.padded 2 (n / minute % 60) ++
    (if second = 0 && micro = 0 then [] else ':' :: Timestamp.padded 2 second) ++
    (if micro = 0 then [] else '.' :: Timestamp.padded 6 micro)

/-- Date and time, and the offset in digits, also for UTC. -/
def text (m : Moment) : String :=
  String.ofList (Timestamp.localText m.time.clock ++
    match m.time.clock.offset with
    | none => []
    | some o => offsetText o m.rest)

/-- How many characters belong to a date. Behind a week there may be the number of a day. -/
def dateLength (cs : List Char) : Nat :=
  if cs.length = 7 then 7
  else if cs[4]? = some '-' then
    if cs[5]? = some 'W' && (cs[8]? ≠ some '-' || (cs[10]?.any Char.isDigit)) then 8 else 10
  else if cs[4]? = some 'W' then
    let digits := 7 + ((cs.drop 7).takeWhile Char.isDigit).length
    if digits < 9 then digits else if digits % 2 = 0 then 7 else 8
  else 8

/-- Days from 1970 to the Monday of the first week of a year, which is the week of 4 January. -/
def firstMonday (year : Nat) : Int :=
  let d := Timestamp.dayNumber year 1 4 - Timestamp.epochDay
  d - (d + 3) % 7

/-- The date of a day in a week, the days counted from Monday. -/
def dateOfWeek? (year week day : Nat) : Option (Nat × Nat × Nat) :=
  let first := firstMonday year + (week - 1 : Int) * 7
  if 1 ≤ week && (week ≤ 52 || (week = 53 && first < firstMonday (year + 1))) && 1 ≤ day && day ≤ 7
  then
    let (y, m, d) := Timestamp.civil (first + day - 1)
    some (y.toNat, m, d)
  else none

/-- Skips a dash, where the date has dashes. -/
def dash? (dashes : Bool) (cs : List Char) : Option (List Char) :=
  if dashes then Timestamp.char? '-' cs else some cs

/-- A date that takes up all of a text. -/
def date? (cs : List Char) : Option (Nat × Nat × Nat) := do
  let (year, cs) ← Timestamp.digits? 4 cs
  let dashes := cs.head? = some '-'
  let cs := if dashes then cs.drop 1 else cs
  match cs with
  | 'W' :: cs =>
    let (week, cs) ← Timestamp.digits? 2 cs
    if cs.isEmpty then dateOfWeek? year week 1
    else
      let (day, _) ← Timestamp.digits? 1 (← dash? dashes cs)
      dateOfWeek? year week day
  | cs =>
    let (month, cs) ← Timestamp.digits? 2 cs
    let (day, cs) ← Timestamp.digits? 2 (← dash? dashes cs)
    if cs.isEmpty then return (year, month, day) else none

/-- What follows the hours, minutes and seconds of a time: nothing more, a stray character, or a
fraction. -/
inductive Tail where
  | finished
  | stray
  | fraction (cs : List Char)

/-- Numbers of two digits, all with colons between them or all without. -/
def fields? : Nat → Option Bool → List Char → Option (List Nat × Tail)
  | 0, _, cs => some ([], .fraction cs)
  | left + 1, colons, cs => do
    let (n, rest) ← Timestamp.digits? 2 cs
    match rest with
    | [] => return ([n], .finished)
    | [_] => return ([n], .stray)
    | c :: more =>
      let withColons := colons.getD (c = ':')
      if c = '.' || c = ',' then return ([n], .fraction more)
      else if withColons && c ≠ ':' then none
      else
        let (ns, tail) ← fields? left (some withColons) (if withColons then more else rest)
        return (n :: ns, tail)

/-- A time of day, or the length of one, in seconds and microseconds. -/
structure Time where
  hour : Nat
  minute : Nat
  second : Nat
  micro : Nat
  /-- Whether nothing stands behind it that has no meaning. -/
  isWhole : Bool

def time? (cs : List Char) : Option Time := do
  let (ns, tail) ← fields? 3 none cs
  let at_ (i : Nat) : Nat := ns.getD i 0
  match tail with
  | .finished => return ⟨at_ 0, at_ 1, at_ 2, 0, true⟩
  | .stray => return ⟨at_ 0, at_ 1, at_ 2, 0, false⟩
  | .fraction cs =>
    let ds := cs.take 6
    if ds.isEmpty || !ds.all Char.isDigit then none
    else
      return ⟨at_ 0, at_ 1, at_ 2, Timestamp.microOf ds, (cs.dropWhile Char.isDigit).isEmpty⟩

/-- The distance from UTC in microseconds. Below a second it counts for nothing. -/
def zone? : List Char → Option Int
  | ['Z'] => some 0
  | 'Z' :: _ => none
  | c :: cs => do
    let t ← time? cs
    let seconds := (t.hour * 60 + t.minute) * 60 + t.second
    let n : Int := if seconds = 0 then 0 else seconds * 1000000 + t.micro
    if t.isWhole then return if c = '-' then -n else n else none
  | [] => none

def isZoneMark (c : Char) : Bool :=
  c = '+' || c = '-' || c = 'Z'

/-- A time of day and a zone. -/
def timeAndZone? (cs : List Char) : Option (Time × Option Int) := do
  let t ← time? (cs.takeWhile (!isZoneMark ·))
  match cs.dropWhile (!isZoneMark ·) with
  | [] => if t.isWhole then return (t, none) else none
  | zone => return (t, some (← zone? zone))

/-- A moment in one of its forms; a date alone is midnight in no zone. -/
def read? (s : String) : Option Moment := do
  let cs := s.toList
  let length := dateLength cs
  let (year, month, day) ← date? (cs.take length)
  let (t, zone) ←
    match cs.drop length with
    | [] => some (⟨0, 0, 0, 0, true⟩, none)
    | _ :: cs => timeAndZone? cs
  let minutes := zone.map fun z => z.tdiv minute
  let time ← Timestamp.ofClock? ⟨year, month, day, t.hour, t.minute, t.second, t.micro, minutes⟩
  return ⟨time, zone.elim 0 fun z => z.tmod minute⟩

end Moment

end Provision
