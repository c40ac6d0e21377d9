import Reconciliation.Json.Members
import Reconciliation.Json.Shortest
import Reconciliation.Text.Quoted
import Reconciliation.Time.Rfc3339

/-!
Reading values from documents, and what can go wrong. A record is read from an object, where unknown
members are ignored, or from an array with its fields in order.
-/
namespace Reconciliation

/-- Why a document does not describe a value. -/
inductive ReadError where
  /-- An object lacks a field that has no default. -/
  | missing (field : String)
  /-- A document is of another kind than expected. -/
  | mistyped (found : Json) (expected : String)
  /-- A document is of the expected kind, but does not fit. -/
  | unfit (found : Json) (expected : String)
  /-- An array has too few or too many items. -/
  | miscounted (count : Nat) (expected : String)
  /-- A word is none of the known ones. -/
  | unknownWord (found : String) (known : List String)
  /-- A text is no instant. -/
  | notAnInstant (fault : Rfc3339.Fault)
deriving DecidableEq

namespace Json

def description : Json → String
  | .null => "null"
  | .bool value => s!"boolean \x60{value}\x60"
  | .number (.integer value) => s!"integer \x60{value}\x60"
  | .number (.double value) => s!"floating point \x60{value.text}\x60"
  | .string value => s!"string {Text.quoted value}"
  | .array _ => "sequence"
  | .object _ => "map"

end Json

def ReadError.message : ReadError → String
  | .missing field => s!"missing field \x60{field}\x60"
  | .mistyped found expected => s!"invalid type: {found.description}, expected {expected}"
  | .unfit found expected => s!"invalid value: {found.description}, expected {expected}"
  | .miscounted count expected => s!"invalid length {count}, expected {expected}"
  | .unknownWord found known =>
    let words := ", ".intercalate (known.map fun word => s!"\x60{word}\x60")
    s!"unknown variant \x60{found}\x60, expected one of {words}"
  | .notAnInstant fault => fault.message

namespace Json

def asText : Json → Except ReadError String
  | .string value => .ok value
  | document => .error (.mistyped document "a string")

def asInt64 : Json → Except ReadError Int64
  | .number (.integer value) =>
    if Int64.minValue.toInt ≤ value ∧ value ≤ Int64.maxValue.toInt then .ok (Int64.ofInt value)
    else .error (.unfit (.number (.integer value)) "i64")
  | document => .error (.mistyped document "i64")

def asTimestamp : Json → Except ReadError Timestamp
  | .string value => (Rfc3339.read value).mapError .notAnInstant
  | document => .error (.mistyped document "an RFC 3339 formatted date and time string")

def asList {α : Type} (read : Json → Except ReadError α) : Json → Except ReadError (List α)
  | .array items => items.mapM read
  | document => .error (.mistyped document "a sequence")

def asOption {α : Type} (read : Json → Except ReadError α) : Json → Except ReadError (Option α)
  | .null => .ok none
  | document => (read document).map some

def ifPresent {α : Type} (read : Json → Except ReadError α) :
    Option Json → Except ReadError (Option α)
  | none => .ok none
  | some document => (read document).map some

/-- The value of a field that an object has to have. -/
def requireField {α : Type} (name : String) : Option α → Except ReadError α
  | none => .error (.missing name)
  | some value => .ok value

/-- Reads the item at an index that an array of `expected` has to have. -/
def requireItem {α : Type} (items : List Json) (index : Nat) (expected : String)
    (read : Json → Except ReadError α) : Except ReadError α :=
  match items[index]? with
  | none => .error (.miscounted index expected)
  | some document => read document

/-- What is expected of an array with too many items. -/
def fewer : String := "fewer elements in array"

/-- Refuses an array with more items than a record has fields. -/
def atMost (count : Nat) (expected : String) (items : List Json) : Except ReadError Unit :=
  if items.length ≤ count then .ok ()
  else .error (.miscounted items.length expected)

def ofInt64 (value : Int64) : Json := .number (.integer value.toInt)

def ofTimestamp (instant : Timestamp) : Json := .string (Rfc3339.write instant)

end Json

end Reconciliation
