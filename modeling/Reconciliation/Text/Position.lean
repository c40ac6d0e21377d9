import Reconciliation.Text.Digits

/-!
Texts that end with a position: ` at line 3 column 7`. The position is read as two numbers and
written anew, which drops zeros in front of a number, and the whole position if the line is 0, which
no text has. A text that ends otherwise stays as it is.
-/
namespace Reconciliation.Text

/-- Splits a text at the last occurrence of a mark. -/
def splitAtLast? (mark : List Char) : List Char → Option (List Char × List Char)
  | [] => none
  | c :: rest =>
    match splitAtLast? mark rest with
    | some (before, behind) => some (c :: before, behind)
    | none =>
      if mark.isPrefixOf (c :: rest) then some ([], (c :: rest).drop mark.length) else none

/-- A place in a text; lines count from 1. -/
structure Position where
  line : Nat
  column : Nat
deriving DecidableEq, Repr, Inhabited

namespace Position

def lineMark : String := " at line "

def columnMark : String := " column "

/-- Reads the numbers of a position, with the mark of the column between them. -/
def ofChars? (chars : List Char) : Option Position :=
  let line := chars.takeWhile Char.isDigit
  let rest := chars.drop line.length
  let mark := columnMark.toList
  if mark.isPrefixOf rest then do
    return { line := ← unsigned64? line, column := ← unsigned64? (rest.drop mark.length) }
  else none

def text (position : Position) : String :=
  if position.line = 0 then ""
  else s!"{lineMark}{position.line}{columnMark}{position.column}"

end Position

/-- A text with the position at its end, if there is one, written anew. -/
def withPosition (text : String) : String :=
  match splitAtLast? Position.lineMark.toList text.toList with
  | none => text
  | some (words, rest) =>
    match Position.ofChars? rest with
    | none => text
    | some position => String.ofList words ++ position.text

end Reconciliation.Text
