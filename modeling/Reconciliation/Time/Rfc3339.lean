import Reconciliation.Text.Blank
import Reconciliation.Text.Digits
import Reconciliation.Time.Timestamp

/-!
Instants as RFC 3339 texts. An instant is written in universal time with as many groups of three
fractional digits as it needs. Reading takes any offset and any number of fractional digits, of
which it keeps nine, and is lenient about blanks, the separator of date and time and the case of its
letters.
-/
namespace Reconciliation.Rfc3339

open Text (digits)

/-- The number of decimal digits a year is written with, at least four. -/
def yearWidth (year : Nat) : Nat :=
  max 4 (Nat.toDigits 10 year).length

/-- A year: four digits, and a sign and all its digits if it has no four-digit form. -/
def writeYear (year : Int) : List Char :=
  if 0 ≤ year ∧ year ≤ 9999 then digits 4 year.toNat
  else (if year < 0 then '-' else '+') :: digits (yearWidth year.natAbs) year.natAbs

/-- The fraction of a second, in three, six or nine digits, and nothing if it is zero. -/
def writeFraction (nanos : Nat) : List Char :=
  if nanos = 0 then []
  else if nanos % 1000000 = 0 then '.' :: digits 3 (nanos / 1000000)
  else if nanos % 1000 = 0 then '.' :: digits 6 (nanos / 1000)
  else '.' :: digits 9 nanos

/-- An instant in universal time, up to the offset. -/
def writeLocal (t : Timestamp) : List Char :=
  let date := t.date
  let second := t.secondOfDay
  let extra := t.nanos / 1000000000
  writeYear date.year ++ '-' :: digits 2 date.month ++ '-' :: digits 2 date.day ++
    'T' :: digits 2 (second / 3600) ++ ':' :: digits 2 (second / 60 % 60) ++
    ':' :: digits 2 (second % 60 + extra) ++ writeFraction (t.nanos % 1000000000)

/-- An instant with the offset written as a letter. -/
def write (t : Timestamp) : String :=
  String.ofList (writeLocal t ++ ['Z'])

/-- An instant with the offset written in digits. -/
def writeWithOffset (t : Timestamp) : String :=
  String.ofList (writeLocal t ++ ['+', '0', '0', ':', '0', '0'])

/-- Why a text is not read as an instant. -/
inductive Fault where
  | invalid
  | tooShort
  | tooLong
  | outOfRange
  | impossible
deriving DecidableEq, Repr

def Fault.message : Fault → String
  | .invalid => "input contains invalid characters"
  | .tooShort => "premature end of input"
  | .tooLong => "trailing input"
  | .outOfRange => "input is out of range"
  | .impossible => "no possible date and time matching input"

def number (limit : Nat) (chars : List Char) : Except Fault (Nat × List Char) :=
  match chars with
  | [] => .error .tooShort
  | c :: _ =>
    if c.isDigit then
      let found := (chars.take limit).takeWhile Char.isDigit
      match Text.decimal? 9223372036854775808 found with
      | some n => .ok (n, chars.drop found.length)
      | none => .error .outOfRange
    else .error .invalid

/-- Reads a two-digit number in a range. -/
def part (low high : Nat) (chars : List Char) : Except Fault (Nat × List Char) := do
  let (n, rest) ← number 2 (Text.trimStart chars)
  if low ≤ n ∧ n ≤ high then return (n, rest)
  throw .outOfRange

/-- Reads a character that has to be there. -/
def literal (c : Char) (chars : List Char) : Except Fault (List Char) :=
  match Text.trimStart chars with
  | [] => .error .tooShort
  | c' :: rest => if c' = c then .ok rest else .error .invalid

def year (chars : List Char) : Except Fault (Int × List Char) := do
  let chars := Text.trimStart chars
  let (value, rest) ← match chars with
    | '-' :: rest => do
      let (n, rest) ← number rest.length rest
      pure (-(n : Int), rest)
    | '+' :: rest => do
      let (n, rest) ← number rest.length rest
      pure ((n : Int), rest)
    | chars => do
      let (n, rest) ← number 4 chars
      pure ((n : Int), rest)
  if -2147483648 ≤ value ∧ value ≤ 2147483647 then return (value, rest)
  throw .outOfRange

def separator : List Char → Except Fault (List Char)
  | [] => .error .tooShort
  | c :: rest => if c = 'T' ∨ c = 't' ∨ c = ' ' then .ok rest else .error .invalid

/-- Reads the fraction of a second, if there is one; digits past the ninth are dropped. -/
def fraction (chars : List Char) : Except Fault (Nat × List Char) :=
  match chars with
  | '.' :: rest => do
    let (n, rest') ← number 9 rest
    let width := rest.length - rest'.length
    return (n * Nat.pow 10 (9 - width), rest'.dropWhile Char.isDigit)
  | chars => .ok (0, chars)

/-- The fault where fewer than two characters are left for two digits: the text is too short, unless
the one that is left lies beyond ASCII. -/
def cutShort : List Char → Fault
  | c :: _ => if c.toNat < 128 then .tooShort else .invalid
  | [] => .tooShort

/-- Reads the two digits of the hours of an offset. -/
def offsetHours : List Char → Except Fault (Nat × List Char)
  | a :: b :: rest =>
    if a.isDigit ∧ b.isDigit then .ok (Nat.ofDigitChars 10 [a, b] 0, rest) else .error .invalid
  | chars => .error (cutShort chars)

/-- Reads the two digits of the minutes of an offset. -/
def offsetMinutes : List Char → Except Fault (Nat × List Char)
  | a :: b :: rest =>
    if a.isDigit ∧ b.isDigit then
      if a ≤ '5' then .ok (Nat.ofDigitChars 10 [a, b] 0, rest) else .error .outOfRange
    else .error .invalid
  | chars => .error (cutShort chars)

def offset (chars : List Char) : Except Fault (Int × List Char) :=
  let signed (sign : Int) (chars : List Char) : Except Fault (Int × List Char) := do
    let (hours, rest) ← offsetHours chars
    let (minutes, rest) ← offsetMinutes (rest.dropWhile fun c => c == ':' || Text.isBlank c)
    return (sign * (hours * 3600 + minutes * 60), rest)
  match Text.trimStart chars with
  | [] => .error .tooShort
  | 'Z' :: rest | 'z' :: rest => .ok (0, rest)
  | '+' :: rest => signed 1 rest
  | '-' :: rest | '\u2212' :: rest => signed (-1) rest
  | u :: t :: c :: rest =>
    if u.toUpper = 'U' ∧ t.toUpper = 'T' ∧ c.toUpper = 'C' then .ok (0, rest) else .error .invalid
  | _ => .error .invalid

/-- The first and the last second that an instant can have. -/
def secondsRange : Int × Int :=
  (Date.toDays ⟨-262143, 1, 1⟩ * 86400, Date.toDays ⟨262142, 12, 31⟩ * 86400 + 86399)

/-- The instant at a day and a time of day, `offset` seconds ahead of universal time. -/
def instant (date : Date) (hour minute second nanos : Nat) (offset : Int) :
    Except Fault Timestamp :=
  if ¬(-262143 ≤ date.year ∧ date.year ≤ 262142 ∧ date.Valid) then .error .outOfRange
  else if ¬(-86400 < offset ∧ offset < 86400) then .error .outOfRange
  else
    let extra := second / 60
    let seconds := date.toDays * 86400 + hour * 3600 + minute * 60 + (second - extra : Nat) - offset
    if ¬(secondsRange.1 ≤ seconds ∧ seconds ≤ secondsRange.2) then .error .impossible
    else
      let nanos := nanos + extra * 1000000000
      if h : nanos < 2000000000 ∧ (1000000000 ≤ nanos → seconds % 60 = 59) then
        .ok ⟨seconds, nanos, h.1, h.2⟩
      else .error .outOfRange

def read (text : String) : Except Fault Timestamp := do
  let (year, rest) ← year text.toList
  let (month, rest) ← part 1 12 (← literal '-' rest)
  let (day, rest) ← part 1 31 (← literal '-' rest)
  let (hour, rest) ← part 0 23 (← separator rest)
  let (minute, rest) ← part 0 59 (← literal ':' rest)
  let (second, rest) ← part 0 60 (← literal ':' rest)
  let (nanos, rest) ← fraction rest
  let (offset, rest) ← offset rest
  if Text.trimStart rest ≠ [] then throw .tooLong
  instant ⟨year, month, day⟩ hour minute second nanos offset

end Reconciliation.Rfc3339
