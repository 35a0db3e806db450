import WorkloadMap.Text.Blank
import WorkloadMap.Text.Numeral

/-!
Points in time to the second, in universal time: read from dates with a time and an offset, with
some freedom in blanks and digits, and written in one form. A sixtieth second is kept wherever it is
read.
-/
namespace WorkloadMap

/-- A day counted from the first of January 1970, a minute of that day and a second of that minute.
-/
structure Instant where
  day : Int
  minute : Nat
  second : Nat
deriving DecidableEq, Repr

namespace Instant

/-- Years begin in March here, so that the leap day is the last. Each has five months of 153 days'
cycle, and four hundred of them 146097 days. -/
def dayOfDate (year : Int) (month day : Nat) : Int :=
  let y := if month ≤ 2 then year - 1 else year
  let era := y.fdiv 400
  let yearOfEra := y - era * 400
  let dayOfYear := (153 * ((month + 9) % 12) + 2) / 5 + day - 1
  let dayOfEra := yearOfEra * 365 + yearOfEra.fdiv 4 - yearOfEra.fdiv 100 + dayOfYear
  era * 146097 + dayOfEra - 719468

/-- The year, month and day of the month, in reverse of the count. -/
def dateOfDay (n : Int) : Int × Nat × Nat :=
  let z := n + 719468
  let era := z.fdiv 146097
  let dayOfEra := (z - era * 146097).toNat
  let yearOfEra := (dayOfEra - dayOfEra / 1460 + dayOfEra / 36524 - dayOfEra / 146096) / 365
  let dayOfYear := dayOfEra - (365 * yearOfEra + yearOfEra / 4 - yearOfEra / 100)
  let mp := (5 * dayOfYear + 2) / 153
  let day := dayOfYear - (153 * mp + 2) / 5 + 1
  let month := if mp < 10 then mp + 3 else mp - 9
  let year := (yearOfEra : Int) + era * 400
  (if month ≤ 2 then year + 1 else year, month, day)

def isLeapYear (year : Int) : Bool :=
  year % 4 == 0 && (year % 100 != 0 || year % 400 == 0)

def daysInMonth (year : Int) (month : Nat) : Nat :=
  match month with
  | 2 => if isLeapYear year then 29 else 28
  | 4 | 6 | 9 | 11 => 30
  | _ => 31

/-- The years that can be told apart. -/
def isYear (year : Int) : Bool :=
  -262143 ≤ year && year ≤ 262142

/-- A time of day at an offset of whole minutes from universal time. -/
def ofLocal? (year : Int) (month day hour minute second : Nat) (offset : Int) : Option Instant :=
  if isYear year ∧ 1 ≤ month ∧ month ≤ 12 ∧ 1 ≤ day ∧ day ≤ daysInMonth year month ∧
      hour ≤ 23 ∧ minute ≤ 59 ∧ second ≤ 60 then
    let minutes := dayOfDate year month day * 1440 + hour * 60 + minute - offset
    let utc : Instant := ⟨minutes.fdiv 1440, (minutes.fmod 1440).toNat, second⟩
    if isYear (dateOfDay utc.day).1 then some utc else none
  else none

/-- Four digits, and a sign if they do not suffice. -/
def renderYear (year : Int) : String :=
  if 0 ≤ year ∧ year ≤ 9999 then Text.padded 4 year.toNat
  else (if year < 0 then "-" else "+") ++ Text.padded 4 year.natAbs

def render (t : Instant) : String :=
  let (year, month, day) := dateOfDay t.day
  renderYear year ++ "-" ++ Text.padded 2 month ++ "-" ++ Text.padded 2 day ++ "T" ++
    Text.padded 2 (t.minute / 60) ++ ":" ++ Text.padded 2 (t.minute % 60) ++ ":" ++
    Text.padded 2 t.second ++ "Z"

/-! Reading takes characters off the front of the text. -/

private abbrev Reader := StateT (List Char) Option

private def blanks : Reader Unit := modify Text.trimStart

private def mark (c : Char) : Reader Unit := do
  match ← get with
  | d :: rest => if d = c then set rest else failure
  | [] => failure

/-- From one to `most` digits, or any number of them. -/
private def number (most : Option Nat) : Reader Nat := do
  let cs ← get
  let run := cs.takeWhile Char.isDigit
  let digits := match most with
    | some most => run.take most
    | none => run
  if digits.isEmpty then failure
  set (cs.drop digits.length)
  return Text.numeral digits

/-- Four digits at most unless there is a sign. -/
private def year : Reader Int := do
  blanks
  match ← get with
  | '-' :: rest => set rest; return -(← number none : Nat)
  | '+' :: rest => set rest; return (← number none : Nat)
  | _ => return (← number (some 4) : Nat)

private def twoDigits : Reader Nat := do
  blanks
  number (some 2)

private def separator (c : Char) : Reader Unit := do
  blanks
  mark c

/-- Fractions of a second are dropped. -/
private def fraction : Reader Unit := do
  match ← get with
  | '.' :: rest =>
    set rest
    let _ ← number none
  | _ => pure ()

private def digit? (c : Char) : Option Nat :=
  if c.isDigit then some (c.toNat - '0'.toNat) else none

/-- Hours and minutes of two digits each, with colons or blanks between them, in minutes. -/
private def span : Reader Int := do
  match ← get with
  | h₁ :: h₂ :: rest =>
    let hours := 10 * (← digit? h₁) + (← digit? h₂)
    match rest.dropWhile fun c => c == ':' || Text.isBlank c with
    | m₁ :: m₂ :: rest =>
      let minutes := 10 * (← digit? m₁) + (← digit? m₂)
      if 60 ≤ minutes ∨ 24 ≤ hours then failure
      set rest
      return (60 * hours + minutes : Nat)
    | _ => failure
  | _ => failure

private def offset : Reader Int := do
  blanks
  match ← get with
  | u :: t :: c :: rest =>
    if u.toUpper = 'U' ∧ t.toUpper = 'T' ∧ c.toUpper = 'C' then
      set rest
      return 0
  | _ => pure ()
  match ← get with
  | 'Z' :: rest | 'z' :: rest => set rest; return 0
  | '+' :: rest => set rest; span
  | '-' :: rest | '\u2212' :: rest => set rest; return -(← span)
  | _ => failure

private def reader : Reader Instant := do
  let y ← year
  separator '-'
  let month ← twoDigits
  separator '-'
  let day ← twoDigits
  match ← get with
  | 'T' :: rest | 't' :: rest | ' ' :: rest => set rest
  | _ => failure
  let hour ← twoDigits
  separator ':'
  let minute ← twoDigits
  separator ':'
  let second ← twoDigits
  fraction
  let o ← offset
  blanks
  (ofLocal? y month day hour minute second o : Option Instant)

def parse? (s : String) : Option Instant :=
  match reader s.toList with
  | some (t, []) => some t
  | _ => none

end Instant

end WorkloadMap
