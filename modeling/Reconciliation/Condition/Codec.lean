import Reconciliation.Condition.Standing
import Reconciliation.Json.Reading

/-!
Conditions and standings as documents. What is absent or empty is not written, and is read back as
such; of a condition, type, status and reason have to be there. Conditions and standings on their
own are read strictly, and those in the status of a resource leniently.
-/
namespace Reconciliation

/-- What may stand for nothing in a document that is read, and how errors put it. -/
inductive Rigor where
  /-- Only `null`. -/
  | strict
  /-- Also an object without members. -/
  | lenient
deriving DecidableEq, Repr

/-- Whether a document stands for nothing. -/
def Rigor.isNothing : Rigor → Json → Bool
  | _, .null => true
  | .lenient, .object .nil => true
  | _, _ => false

/-- What is expected of an array with more items than a record has fields. -/
def Rigor.excess : Rigor → Nat → String
  | .strict, _ => Json.fewer
  | .lenient, count => s!"{count} elements in sequence"

namespace Verity

def toJson (verity : Verity) : Json := .string verity.word

def readWord (word : String) : Except ReadError Verity :=
  match ofWord? word with
  | some verity => .ok verity
  | none => .error (.unknownWord word words)

/-- Reads a status: its word, or an object whose only member stands for nothing under the word. -/
def ofJson (rigor : Rigor) : Json → Except ReadError Verity
  | .string word => readWord word
  | .object (.cons word _ value .nil) => do
    let verity ← readWord word
    if rigor.isNothing value then return verity
    throw (.mistyped value "unit")
  | .object members => .error (.unfit (.object members) "map with a single key")
  | document => .error (.mistyped document "string or map")

end Verity

namespace Condition

/-- How errors name a condition in array form. -/
def shape : String := "struct Condition with 6 elements"

def toObject (condition : Condition) : Json.Object :=
  Json.Object.ofList [
      ("type", .string condition.type),
      ("status", condition.status.toJson),
      ("reason", .string condition.reason),
      ("message", .string condition.message)]
    |>.insert? "lastTransitionTime" (condition.since.map Json.ofTimestamp)
    |>.insert? "observedGeneration" (condition.generation.map Json.ofInt64)

def toJson (condition : Condition) : Json := .object condition.toObject

def ofObject (rigor : Rigor) (object : Json.Object) : Except ReadError Condition := do
  let since ← Json.ifPresent (Json.asOption Json.asTimestamp) (object.get? "lastTransitionTime")
  let message ← Json.ifPresent Json.asText (object.get? "message")
  let generation ← Json.ifPresent (Json.asOption Json.asInt64) (object.get? "observedGeneration")
  let reason ← Json.ifPresent Json.asText (object.get? "reason")
  let status ← Json.ifPresent (Verity.ofJson rigor) (object.get? "status")
  let type ← Json.ifPresent Json.asText (object.get? "type")
  let type ← Json.requireField "type" type
  let status ← Json.requireField "status" status
  let reason ← Json.requireField "reason" reason
  return {
    type, status, reason
    message := message.getD ""
    since := since.join
    generation := generation.join }

/-- Reads a condition from its fields in order. -/
def ofItems (rigor : Rigor) (items : List Json) : Except ReadError Condition := do
  let type ← Json.requireItem items 0 shape Json.asText
  let status ← Json.requireItem items 1 shape (Verity.ofJson rigor)
  let reason ← Json.requireItem items 2 shape Json.asText
  let message ← Json.ifPresent Json.asText items[3]?
  let since ← Json.ifPresent (Json.asOption Json.asTimestamp) items[4]?
  let generation ← Json.ifPresent (Json.asOption Json.asInt64) items[5]?
  Json.atMost 6 (rigor.excess 6) items
  return {
    type, status, reason
    message := message.getD ""
    since := since.join
    generation := generation.join }

/-- Reads a condition. -/
def ofJson (rigor : Rigor) : Json → Except ReadError Condition
  | .object object => ofObject rigor object
  | .array items => ofItems rigor items
  | document => .error (.mistyped document "struct Condition")

end Condition

namespace Standing

/-- The conditions as a document, if there are any. -/
def conditionsJson? (standing : Standing) : Option Json :=
  if standing.conditions.isEmpty then none
  else some (.array (standing.conditions.map Condition.toJson))

/-- The phase as a document, if there is one. -/
def phaseJson? (standing : Standing) : Option Json :=
  if standing.phase = .blank then none else some (.string standing.phase.text)

def toObject (standing : Standing) : Json.Object :=
  Json.Object.ofList []
    |>.insert? "conditions" standing.conditionsJson?
    |>.insert? "phase" standing.phaseJson?

def toJson (standing : Standing) : Json := .object standing.toObject

def readConditions (rigor : Rigor) : Json → Except ReadError (List Condition) :=
  Json.asList (Condition.ofJson rigor)

/-- Reads a standing from its two fields. -/
def ofFields (rigor : Rigor) (conditions phase : Option Json) : Except ReadError Standing := do
  let conditions ← Json.ifPresent (readConditions rigor) conditions
  let phase ← Json.ifPresent Json.asText phase
  return { conditions := conditions.getD [], phase := ⟨phase.getD ""⟩ }

def ofObject (rigor : Rigor) (object : Json.Object) : Except ReadError Standing :=
  ofFields rigor (object.get? "conditions") (object.get? "phase")

/-- Reads a standing. -/
def ofJson (rigor : Rigor) : Json → Except ReadError Standing
  | .object object => ofObject rigor object
  | .array items => do
    let standing ← ofFields rigor items[0]? items[1]?
    Json.atMost 2 (rigor.excess 2) items
    return standing
  | document => .error (.mistyped document "struct ConditionPhase")

end Standing

end Reconciliation
