import SharedViews.Decimal.Layout
import SharedViews.Text.Blank

/-! Moments of time and their text.

A moment is a number of seconds from the beginning of 1970 and a part of a
second, both in universal time. Its date is that of the Gregorian calendar,
carried back and forth without end: days are counted from the first of March of
year zero in eras of four hundred years, so that the leap day falls at the end
of a year and no month table is needed.

The text is `year-month-dayThour:minute:secondZ`, with three, six or nine places
of a second when fewer do not say it all. Reading is wider: blanks may stand
before any part, a blank may replace the `T`, and the text may give its distance
from universal time, which is then taken off. -/
namespace SharedViews

/-- A moment. A billion `nanos` or more lie in a leap second. -/
structure Timestamp where
  seconds : Int
  nanos : Nat
  deriving DecidableEq, Inhabited, Repr

namespace Timestamp

/-! ### Calendar -/

structure Date where
  year : Int
  month : Nat
  day : Nat
  deriving DecidableEq, Repr

def isLeap (year : Int) : Bool := year % 4 == 0 && (year % 100 != 0 || year % 400 == 0)

def monthLength (year : Int) (month : Nat) : Nat :=
  if month = 2 then if isLeap year then 29 else 28
  else if month = 4 ∨ month = 6 ∨ month = 9 ∨ month = 11 then 30
  else 31

def Date.isValid (d : Date) : Bool :=
  1 ≤ d.month && d.month ≤ 12 && 1 ≤ d.day && d.day ≤ monthLength d.year d.month

/-- Days from the beginning of 1970. -/
def Date.toDays (d : Date) : Int :=
  let year := if d.month ≤ 2 then d.year - 1 else d.year
  let era := year / 400
  let yearOfEra := year - era * 400
  let shifted : Int := (d.month + 9) % 12
  let dayOfYear := (153 * shifted + 2) / 5 + d.day - 1
  let dayOfEra := yearOfEra * 365 + yearOfEra / 4 - yearOfEra / 100 + dayOfYear
  era * 146097 + dayOfEra - 719468

def Date.ofDays (days : Int) : Date :=
  let z := days + 719468
  let era := z / 146097
  let dayOfEra := z - era * 146097
  let yearOfEra := (dayOfEra - dayOfEra / 1460 + dayOfEra / 36524 - dayOfEra / 146096) / 365
  let dayOfYear := dayOfEra - (365 * yearOfEra + yearOfEra / 4 - yearOfEra / 100)
  let shifted := (5 * dayOfYear + 2) / 153
  let day := (dayOfYear - (153 * shifted + 2) / 5 + 1).toNat
  let month := if shifted < 10 then (shifted + 3).toNat else (shifted - 9).toNat
  let year := yearOfEra + era * 400
  ⟨if month ≤ 2 then year + 1 else year, month, day⟩

def ofMillis (ms : Int) : Timestamp := ⟨ms / 1000, (ms % 1000).toNat * 1000000⟩

/-! ### Writing -/

/-- A number with leading zeros up to a width. -/
def padded (width n : Nat) : List Char :=
  let digits := Decimal.digitChars n
  List.replicate (width - digits.length) '0' ++ digits

/-- Four digits, or a sign and at least four outside the four-digit years. -/
def yearChars (year : Int) : List Char :=
  if 0 ≤ year ∧ year ≤ 9999 then padded 4 year.toNat
  else (if year < 0 then '-' else '+') :: padded 4 year.natAbs

/-- The places of a second that are needed, in groups of three. -/
def fractionChars (nanos : Nat) : List Char :=
  if nanos = 0 then []
  else if nanos % 1000000 = 0 then '.' :: padded 3 (nanos / 1000000)
  else if nanos % 1000 = 0 then '.' :: padded 6 (nanos / 1000)
  else '.' :: padded 9 nanos

def text (t : Timestamp) : String :=
  let date := Date.ofDays (t.seconds / 86400)
  let second := (t.seconds % 86400).toNat
  let leap := if 1000000000 ≤ t.nanos then 1 else 0
  String.ofList <|
    yearChars date.year ++ '-' :: padded 2 date.month ++ '-' :: padded 2 date.day ++
    'T' :: padded 2 (second / 3600) ++ ':' :: padded 2 (second / 60 % 60) ++
    ':' :: padded 2 (second % 60 + leap) ++ fractionChars (t.nanos - leap * 1000000000) ++ ['Z']

/-! ### Reading -/

abbrev Reader (α : Type) := List Char → Option (α × List Char)

def isDigit (c : Char) : Bool := '0' ≤ c && c ≤ '9'

def digitsValue (ds : List Char) : Nat := ds.foldl (fun n c => n * 10 + (c.toNat - '0'.toNat)) 0

/-- A number of one digit or more, `width` at most if there is a width. -/
def number (width : Option Nat) (cs : List Char) : Option (Nat × List Char) :=
  let all := cs.takeWhile isDigit
  let ds := match width with
    | some w => all.take w
    | none => all
  if ds.isEmpty then none else some (digitsValue ds, cs.drop ds.length)

/-- A number after blanks. -/
def part (width : Nat) : Reader Nat := fun cs => number (some width) (Text.trimStart cs)

/-- A mark, after blanks where blanks may stand. -/
def mark (c : Char) (cs : List Char) : Option (List Char) :=
  match Text.trimStart cs with
  | d :: rest => if d = c then some rest else none
  | [] => none

/-- A year: four digits at most, or any number of them after a sign. -/
def readYear : Reader Int := fun cs =>
  match Text.trimStart cs with
  | '-' :: rest => (number none rest).map fun (n, rest) => (-(n : Int), rest)
  | '+' :: rest => (number none rest).map fun (n, rest) => ((n : Int), rest)
  | cs => (number (some 4) cs).map fun (n, rest) => ((n : Int), rest)

/-- The part of a second behind a point, digits beyond the ninth dropped. -/
def readFraction : Reader Nat
  | '.' :: rest =>
    match rest.takeWhile isDigit with
    | [] => none
    | ds =>
      let kept := ds.take 9
      some (digitsValue kept * Nat.pow 10 (9 - kept.length), rest.drop ds.length)
  | cs => some (0, cs)

/-- The distance from universal time in seconds. -/
def readOffset : Reader Int
  | cs =>
    let signed (negative : Bool) (cs : List Char) : Option (Int × List Char) :=
      match cs with
      | h :: k :: rest =>
        if isDigit h && isDigit k then
          match rest.dropWhile fun c => c = ':' || Text.isBlank c with
          | m :: n :: rest =>
            if isDigit m && isDigit n && digitsValue [m, n] < 60 then
              let s : Int := digitsValue [h, k] * 3600 + digitsValue [m, n] * 60
              some (if negative then -s else s, rest)
            else none
          | _ => none
        else none
      | _ => none
    match cs with
    | 'Z' :: rest | 'z' :: rest => some (0, rest)
    | '+' :: rest => signed false rest
    | '-' :: rest | '\u2212' :: rest => signed true rest
    | u :: t :: c :: rest =>
      if u.toUpper = 'U' ∧ t.toUpper = 'T' ∧ c.toUpper = 'C' then some (0, rest) else none
    | _ => none

/-- The years a moment may lie in. -/
def yearRange : Int × Int := (-262143, 262142)

/-- The moment a text names. -/
def parse (s : String) : Option Timestamp := do
  let (year, cs) ← readYear s.toList
  let cs ← mark '-' cs
  let (month, cs) ← part 2 cs
  let cs ← mark '-' cs
  let (day, cs) ← part 2 cs
  let cs ← match cs with
    | 'T' :: rest | 't' :: rest | ' ' :: rest => some rest
    | _ => none
  let (hour, cs) ← part 2 cs
  let cs ← mark ':' cs
  let (minute, cs) ← part 2 cs
  let cs ← mark ':' cs
  let (second, cs) ← part 2 cs
  let (nanos, cs) ← readFraction cs
  let (offset, cs) ← readOffset (Text.trimStart cs)
  let date : Date := ⟨year, month, day⟩
  let inRange (y : Int) : Bool := yearRange.1 ≤ y && y ≤ yearRange.2
  if (Text.trimStart cs).isEmpty && date.isValid && inRange year && hour < 24 && minute < 60 &&
      second ≤ 60 && offset.natAbs < 86400 then
    let leap := if second = 60 then 1 else 0
    let clock : Int := hour * 3600 + minute * 60 + (second - leap : Nat)
    let seconds := date.toDays * 86400 + clock - offset
    if inRange (Date.ofDays (seconds / 86400)).year then
      some ⟨seconds, nanos + leap * 1000000000⟩
    else none
  else none

end Timestamp
end SharedViews
