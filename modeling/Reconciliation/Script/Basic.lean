import Reconciliation.Engine.Basic
import Reconciliation.Json.Path

/-!
Scripts: user code as data, for rehearsing how engines deal with it. A script is a list of actions
that are carried out in order; it may end early with an objection or a panic.
-/
namespace Reconciliation

/-- A question about a resource. -/
inductive Test where
  | always (answer : Bool)
  | not (test : Test)
  /-- Whether a place in the specification holds a value. -/
  | spec (pointer : String) (value : Json)
  | phase (phase : Phase)
  | healthy (answer : Bool)
  | holds (type : String)
  | hasFinalizer (finalizer : String)
  | terminating (answer : Bool)
  | countBelow (counter : String) (limit : Nat)

/-- A change of metadata. -/
inductive MetadataChange where
  | name (name : String)
  | space (space : String)
  | version (version : Option String)
  | generation (generation : Option Int64)
  | finalizers (finalizers : List String)
  | deletion (deletion : Option Timestamp)
deriving DecidableEq

/-- How a script ends before its end. -/
inductive Ending where
  | success
  | failure (report : Report)
  /-- A verdict, or why it cannot be made. -/
  | verdict (given : Except Violation Verdict)
  | panic (payload : Payload)

inductive Action where
  | setSpec (path : List String) (value : Json)
  | unsetSpec (path : List String)
  | setStatus (key : String) (value : Json)
  | unsetStatus (key : String)
  | dropStatus
  | emptyStatus
  /-- Sets a condition, or panics where it cannot be made; in both cases there is a status then. -/
  | setCondition (given : Except Violation Condition)
  | removeCondition (type : String)
  | setPhase (phase : Phase)
  | checkReady (phase : Option Phase) (types : List String)
  | setMetadata (change : MetadataChange)
  | addFinalizer (finalizer : String)
  | removeFinalizer (finalizer : String)
  /-- From now on the resource cannot be written. -/
  | spoil (text : String)
  | see (type : String)
  | seeAll
  | note (document : Json)
  | count (counter : String)
  /-- Someone else changes the specification of a stored resource. -/
  | touch (key : Key) (path : List String) (value : Json)
  /-- Someone else asks for the deletion of a stored resource. -/
  | delete (key : Key)
  | failOn (verb : Verb)
  | clearFailures
  /-- Lets others go first. -/
  | wait
  | branch (test : Test) (yes no : List Action)
  | finish (ending : Ending)

/-- What scripts and the functions around them put on record. -/
inductive Entry where
  | work (type : String)
  | cleanup
  | hook (type : String)
  | onFail (type : String)
  | onChange
  | skipper (answer : Bool)
  | preFinalizeSkipper (answer : Bool)
  | stepSkipper (type : String) (seen : Option Verity) (answer : Bool)
  | gone (key : Key)
  | event (severity : Severity) (reason : String) (phase : Phase)
  | unsetStatus (removed : Bool)
  | removeCondition (removed : Bool)
  | addFinalizer (added : Bool)
  | removeFinalizer (removed : Bool)
  | see (type : String) (condition : Option Condition)
  | seeAll (resource : Resource)
  | note (document : Json)
  /-- There was nothing to touch. -/
  | untouched
  | delete (answer : Except StoreError Unit)

structure Ledger where
  /-- The time that scripts see. -/
  now : Timestamp := default
  /-- The entries, the last one first. -/
  entries : List Entry := []
  /-- The events that were sent, and what they are about, the last one first. -/
  events : List (Key × Event) := []
  counters : List (String × Nat) := []

namespace Ledger

def add (entry : Entry) (ledger : Ledger) : Ledger :=
  { ledger with entries := entry :: ledger.entries }

/-- What a counter has come to; it begins at zero. -/
def counter (ledger : Ledger) (name : String) : Nat :=
  (ledger.counters.lookup name).getD 0

/-- Adds one to a counter. -/
def count (name : String) (ledger : Ledger) : Ledger :=
  let others := ledger.counters.filter fun entry => entry.1 ≠ name
  { ledger with counters := (name, ledger.counter name + 1) :: others }

end Ledger

namespace Test

/-- The answer to a question. -/
def holdsFor (resource : Resource) (ledger : Ledger) : Test → Bool
  | .always answer => answer
  | .not test => !test.holdsFor resource ledger
  | .spec pointer value =>
    (resource.spec.pointee? pointer).any fun found => decide (found.Agree value)
  | .phase label => resource.standing.phase == label
  | .healthy answer => resource.standing.phase.isSuccess == answer
  | .holds type => resource.standing.isTrue type
  | .hasFinalizer finalizer => resource.hasFinalizer finalizer
  | .terminating answer => resource.isTerminating == answer
  | .countBelow name limit => ledger.counter name < limit

end Test

def MetadataChange.apply (metadata : Metadata) : MetadataChange → Metadata
  | .name given => { metadata with name := given }
  | .space given => { metadata with space := given }
  | .version given => { metadata with version := given }
  | .generation given => { metadata with generation := given }
  | .finalizers given => { metadata with finalizers := given }
  | .deletion given => { metadata with deletion := given }

end Reconciliation
