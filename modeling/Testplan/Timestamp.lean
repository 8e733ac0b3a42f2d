import Testplan.TextBlank
/-!
# Instants of universal time

A plan records when it was compiled.  A `Timestamp` is a count of seconds since
the start of 1970 in universal time together with nanoseconds; a leap second is
the 59th second of its minute with 10⁹ nanoseconds or more.

Timestamps are written as RFC 3339 asks, ending in `Z`, with 0, 3, 6 or 9
fraction digits — the fewest that lose nothing (`render`).  Reading (`parse?`)
also takes blanks between the parts, parts without leading zeros, a blank in
place of the `T`, and any numeric offset.
-/
namespace Testplan

/-- **An instant**: seconds since the start of 1970 and nanoseconds. -/
structure Timestamp where
  seconds : Int
  nanos : Nat
deriving DecidableEq, Inhabited

namespace Timestamp

/-! ## Days and dates -/

/-- Days from the start of 1970 to a date of the proleptic Gregorian calendar.
Years are counted from March, so that the leap day is the last of its year. -/
def dayNumber (year : Int) (month day : Nat) : Int :=
  let y := if month ≤ 2 then year - 1 else year
  let era := y.fdiv 400
  let yearOfEra := y - era * 400
  let monthFromMarch : Nat := (month + 9) % 12
  let dayOfYear : Int := (153 * monthFromMarch + 2) / 5 + day - 1
  let dayOfEra := yearOfEra * 365 + yearOfEra / 4 - yearOfEra / 100 + dayOfYear
  era * 146097 + dayOfEra - 719468

/-- The year, month and day of a day number. -/
def dateOf (days : Int) : Int × Nat × Nat :=
  let z := days + 719468
  let era := z.fdiv 146097
  let dayOfEra := (z - era * 146097).toNat
  let yearOfEra := (dayOfEra - dayOfEra / 1460 + dayOfEra / 36524 - dayOfEra / 146096) / 365
  let dayOfYear := dayOfEra - (365 * yearOfEra + yearOfEra / 4 - yearOfEra / 100)
  let monthFromMarch := (5 * dayOfYear + 2) / 153
  let day := dayOfYear - (153 * monthFromMarch + 2) / 5 + 1
  let month := if monthFromMarch < 10 then monthFromMarch + 3 else monthFromMarch - 9
  let year : Int := yearOfEra + era * 400
  (if month ≤ 2 then year + 1 else year, month, day)

/-- A year with 366 days. -/
def isLeapYear (year : Int) : Bool :=
  year % 4 = 0 && (year % 100 ≠ 0 || year % 400 = 0)

/-- The number of days of a month. -/
def daysInMonth (year : Int) (month : Nat) : Nat :=
  if month = 2 then (if isLeapYear year then 29 else 28)
  else if month = 4 ∨ month = 6 ∨ month = 9 ∨ month = 11 then 30 else 31

/-! ## Writing -/

/-- A number with at least `width` digits. -/
def padded (width n : Nat) : String :=
  let digits := toString n
  String.ofList (List.replicate (width - digits.length) '0') ++ digits

/-- The year: four digits, and a sign in front outside 0 to 9999. -/
def renderYear (year : Int) : String :=
  if 0 ≤ year ∧ year ≤ 9999 then padded 4 year.toNat
  else (if year < 0 then "-" else "+") ++ padded 4 year.natAbs

/-- The fraction of a second, with the fewest of 0, 3, 6 or 9 digits. -/
def renderFraction (nanos : Nat) : String :=
  if nanos = 0 then ""
  else if nanos % 1000000 = 0 then "." ++ padded 3 (nanos / 1000000)
  else if nanos % 1000 = 0 then "." ++ padded 6 (nanos / 1000)
  else "." ++ padded 9 nanos

/-- The written form of an instant. -/
def render (t : Timestamp) : String :=
  let (year, month, day) := dateOf (t.seconds.fdiv 86400)
  let clock := (t.seconds.fmod 86400).toNat
  let second := clock % 60 + t.nanos / 1000000000
  renderYear year ++ "-" ++ padded 2 month ++ "-" ++ padded 2 day ++ "T" ++
    padded 2 (clock / 3600) ++ ":" ++ padded 2 (clock / 60 % 60) ++ ":" ++ padded 2 second ++
    renderFraction (t.nanos % 1000000000) ++ "Z"

/-! ## Reading

Each reader takes the characters still to be read and gives back a value with
the characters after it. -/

/-- Blanks, skipped. -/
def skip (cs : List Char) : List Char := cs.dropWhile Text.isBlank

/-- A number of at least one and at most `most` digits, after blanks. -/
def number? (most : Nat) (cs : List Char) : Option (Nat × List Char) :=
  let digits := ((skip cs).take most).takeWhile Char.isDigit
  if digits.isEmpty then none
  else some (digits.foldl (fun n c => 10 * n + (c.toNat - '0'.toNat)) 0,
    (skip cs).drop digits.length)

/-- A number in the range from `low` to `high`. -/
def numberIn? (low high most : Nat) (cs : List Char) : Option (Nat × List Char) := do
  let (n, rest) ← number? most cs
  if low ≤ n ∧ n ≤ high then some (n, rest) else none

/-- A given character after blanks. -/
def sign? (c : Char) (cs : List Char) : Option (List Char) :=
  match skip cs with
  | d :: rest => if d = c then some rest else none
  | [] => none

/-- A year: up to four digits, or a sign and any number of digits. -/
def year? (cs : List Char) : Option (Int × List Char) :=
  match skip cs with
  | '-' :: rest =>
    if rest.head?.any Char.isDigit then
      (number? rest.length rest).map fun (n, r) => (-(n : Int), r)
    else none
  | '+' :: rest =>
    if rest.head?.any Char.isDigit then
      (number? rest.length rest).map fun (n, r) => ((n : Int), r)
    else none
  | cs => (number? 4 cs).map fun (n, r) => ((n : Int), r)

/-- The fraction of a second in nanoseconds; digits after the ninth are dropped. -/
def fraction? : List Char → Option (Nat × List Char)
  | '.' :: rest =>
    let digits := rest.takeWhile Char.isDigit
    if digits.isEmpty then none
    else
      let nine := (digits ++ List.replicate 9 '0').take 9
      some (nine.foldl (fun n c => 10 * n + (c.toNat - '0'.toNat)) 0,
        rest.drop digits.length)
  | cs => some (0, cs)

/-- An offset from universal time in seconds: `Z`, `UTC`, or a sign with hours and
minutes. -/
def offset? (cs : List Char) : Option (Int × List Char) :=
  let digit (c : Char) : Option Nat := if c.isDigit then some (c.toNat - '0'.toNat) else none
  let signed (negative : Bool) (cs : List Char) : Option (Int × List Char) :=
    match cs with
    | h₁ :: h₂ :: rest => do
      let hours := 10 * (← digit h₁) + (← digit h₂)
      match rest.dropWhile (fun c => c = ':' || Text.isBlank c) with
      | m₁ :: m₂ :: rest =>
        let minutes := 10 * (← digit m₁) + (← digit m₂)
        if minutes < 60 ∧ hours < 24 then
          let s : Int := hours * 3600 + minutes * 60
          some (if negative then -s else s, rest)
        else none
      | _ => none
    | _ => none
  if (cs.take 3).map Char.toUpper = "UTC".toList then some (0, cs.drop 3)
  else match cs with
    | 'Z' :: rest => some (0, rest)
    | 'z' :: rest => some (0, rest)
    | '+' :: rest => signed false rest
    | '-' :: rest => signed true rest
    | '\u2212' :: rest => signed true rest
    | _ => none

/-- Reads an instant. -/
def parse? (s : String) : Option Timestamp := do
  let (year, cs) ← year? s.toList
  let cs ← sign? '-' cs
  let (month, cs) ← numberIn? 1 12 2 cs
  let cs ← sign? '-' cs
  let (day, cs) ← numberIn? 1 31 2 cs
  let cs ← match cs with
    | c :: rest => if c = 't' ∨ c = 'T' ∨ c = ' ' then some rest else none
    | [] => none
  let (hour, cs) ← numberIn? 0 23 2 cs
  let cs ← sign? ':' cs
  let (minute, cs) ← numberIn? 0 59 2 cs
  let cs ← sign? ':' cs
  let (second, cs) ← numberIn? 0 60 2 cs
  let (nanos, cs) ← fraction? cs
  let (offset, cs) ← offset? (skip cs)
  if (skip cs).isEmpty ∧ day ≤ daysInMonth year month ∧ -262143 ≤ year ∧ year ≤ 262142 then
    let clock : Int := hour * 3600 + minute * 60 + min second 59
    some ⟨dayNumber year month day * 86400 + clock - offset,
      nanos + (if second = 60 then 1000000000 else 0)⟩
  else none

instance : ToString Timestamp := ⟨render⟩

end Timestamp

end Testplan
