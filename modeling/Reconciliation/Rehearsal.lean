import Reconciliation.Engine.Registration
import Reconciliation.Script.Run
import Reconciliation.Task.Execution

/-!
Rehearsals: a store, resources in hand under names of their own, and engines whose functions are
scripts. Each operation is carried out at a given time and is followed by an observation of what has
changed.
-/
namespace Reconciliation

inductive Operation where
  | insert (document : Json)
  | peek (key : Key)
  | contains (key : Key)
  | delete (key : Key)
  | resetCalls
  | writes
  | failOn (verb : Verb)
  | clearFailures
  /-- Takes a resource that is read from a document in hand. -/
  | take (cell : String) (document : Json)
  /-- Takes a copy of what is in hand under another name. -/
  | copy (cell source : String)
  /-- Gives what is in hand under one name a further name. -/
  | alias (cell source : String)
  /-- Puts a copy of what is in hand under one name in place of what is under another. -/
  | swap (cell source : String)
  | setSpec (cell : String) (value : Json)
  | get (cell : String) (key : Key)
  | act (cell : String) (script : Script)
  | update (cell : String)
  | updateStatus (cell : String)
  | patch (cell base : String)
  | patchStatus (cell base : String)
  | finalize (cell finalizer : String) (cleanup : Option Script)
  | edit (cell : String) (mutate : Script) (persistent : Bool) (onChange : Option Script)
  | perform (cell type : String) (work : Script) (options : StepOptions Ledger)
  | build (engine : String) (registrations : List (Registration Ledger))
  | run (engine : String) (key : Key)
  | runIn (engine cell : String)

inductive Failure where
  /-- A document describes no resource. -/
  | unreadable
  | store (cause : StoreError)
  | work (cause : WorkError)
  | config (cause : ConfigError)
  | panic (payload : Payload)
  /-- There is nothing under a name. -/
  | unknownName

inductive Answer where
  | nothing
  | resource (resource : Resource)
  | document (document : Json)
  | truth (value : Bool)
  | number (value : Nat)
  | objection (cause : Objection)
  | outcome (outcome : Outcome)
  | engine (engine : Engine Ledger)
  | requeue (requeue : Requeue)
  | failed (cause : Failure)

/-- What can be seen under a key of the store. -/
inductive Sight where
  | absent
  | unreadable
  | readable (resource : Resource)
deriving DecidableEq

/-- The state of a rehearsal. -/
structure Rehearsal where
  store : Store := {}
  ledger : Ledger := {}
  /-- The names of the resources in hand. -/
  names : List (String × Nat) := []
  /-- The resources in hand. -/
  hands : Array Resource := #[]
  engines : List (String × Engine Ledger) := []
  /-- The keys under which a resource has been put, with what was observed there last. -/
  seen : List (Key × Option Sight) := []
  /-- The requests that had been made at the last observation. -/
  calls : Calls := {}

/-- What has changed with an operation. -/
structure Observation where
  answer : Answer
  entries : List Entry
  events : List (Key × Event)
  /-- The requests that have been made, if there are new ones. -/
  calls : Option Calls
  sights : List (Key × Sight)
  /-- The resource in hand that was asked for. -/
  cell : Option Resource

namespace Rehearsal

variable {ε α : Type}

/-- The resource in hand under a name. -/
def hand? (rehearsal : Rehearsal) (cell : String) : Option Resource :=
  (rehearsal.names.lookup cell).bind (rehearsal.hands[·]?)

/-- Takes a resource in hand under a new name. -/
def take (cell : String) (resource : Resource) (rehearsal : Rehearsal) : Rehearsal :=
  { rehearsal with
    names := (cell, rehearsal.hands.size) :: rehearsal.names
    hands := rehearsal.hands.push resource }

/-- Replaces the resource under a name. -/
def replace (cell : String) (resource : Resource) (rehearsal : Rehearsal) : Rehearsal :=
  match rehearsal.names.lookup cell with
  | some slot => { rehearsal with hands := rehearsal.hands.setIfInBounds slot resource }
  | none => rehearsal

def remember (key : Key) (rehearsal : Rehearsal) : Rehearsal :=
  if (rehearsal.seen.lookup key).isSome then rehearsal
  else { rehearsal with seen := rehearsal.seen ++ [(key, none)] }

/-- How a task that ends without a value has failed. -/
def failure (terms : ε → Failure) : Stop ε → Failure
  | .panic payload => .panic payload
  | .error cause => terms cause

/-- An operation on the resource in hand under a name. -/
def withHand (rehearsal : Rehearsal) (cell : String)
    (f : Resource → Answer × Rehearsal) : Answer × Rehearsal :=
  match rehearsal.hand? cell with
  | some resource => f resource
  | none => (.failed .unknownName, rehearsal)

/-- Carries out a task on the resource in hand under a name. -/
def carryOut (rehearsal : Rehearsal) (now : Timestamp) (cell : String) (task : Task Ledger ε α)
    (value : α → Answer) (terms : ε → Answer) : Answer × Rehearsal :=
  rehearsal.withHand cell fun resource =>
    let execution := task.exec now ⟨resource, rehearsal.ledger⟩ rehearsal.store
    let rehearsal :=
      { rehearsal.replace cell execution.scene.resource with
        store := execution.store
        ledger := execution.scene.state }
    match execution.result with
    | .ok result => (value result, rehearsal)
    | .error (.error cause) => (terms cause, rehearsal)
    | .error (.panic payload) => (.failed (.panic payload), rehearsal)

def workFailed (cause : WorkError) : Answer := .failed (.work cause)

/-- Makes a request to write and takes what was written in hand. -/
def write (rehearsal : Rehearsal) (now : Timestamp) (cell : String)
    (request : Resource → Task Ledger WorkError (Except StoreError Resource)) :
    Answer × Rehearsal :=
  rehearsal.withHand cell fun resource =>
    rehearsal.carryOut now cell (Edit.renew (request resource)) (fun _ => .nothing) workFailed

def perform (rehearsal : Rehearsal) (now : Timestamp) : Operation → Answer × Rehearsal
  | .insert document =>
    match Resource.ofJson document with
    | .error _ => (.failed .unreadable, rehearsal)
    | .ok resource =>
      let rehearsal := rehearsal.remember resource.key
      match rehearsal.store.insert resource with
      | (.ok stored, store) => (.resource stored, { rehearsal with store })
      | (.error error, store) => (.failed (.store error), { rehearsal with store })
  | .peek key => (((rehearsal.store.peek key).elim .nothing .resource), rehearsal)
  | .contains key => (.truth (rehearsal.store.contains key), rehearsal)
  | .delete key =>
    match rehearsal.store.delete now key with
    | (.ok (), store) => (.nothing, { rehearsal with store })
    | (.error error, store) => (.failed (.store error), { rehearsal with store })
  | .resetCalls => (.nothing, { rehearsal with store := rehearsal.store.resetCalls })
  | .writes => (.number rehearsal.store.calls.writes, rehearsal)
  | .failOn verb => (.nothing, { rehearsal with store := rehearsal.store.failOn verb })
  | .clearFailures => (.nothing, { rehearsal with store := rehearsal.store.clearFailures })
  | .take cell document =>
    match Resource.ofJson document with
    | .error _ => (.failed .unreadable, rehearsal)
    | .ok resource => (.nothing, rehearsal.take cell resource)
  | .copy cell source =>
    rehearsal.withHand source fun resource => (.nothing, rehearsal.take cell resource)
  | .alias cell source =>
    match rehearsal.names.lookup source with
    | some slot => (.nothing, { rehearsal with names := (cell, slot) :: rehearsal.names })
    | none => (.failed .unknownName, rehearsal)
  | .swap cell source =>
    rehearsal.withHand source fun resource =>
      rehearsal.withHand cell fun old => (.resource old, rehearsal.replace cell resource)
  | .setSpec cell value =>
    rehearsal.withHand cell fun resource =>
      (.document value, rehearsal.replace cell { resource with spec := value })
  | .get cell key =>
    match rehearsal.store.get key with
    | (.ok resource, store) => (.nothing, { rehearsal with store }.take cell resource)
    | (.error error, store) => (.failed (.store error), { rehearsal with store })
  | .act cell script => rehearsal.carryOut now cell script.run (fun _ => .nothing) .objection
  | .update cell => rehearsal.write now cell Task.update
  | .updateStatus cell => rehearsal.write now cell Task.updateStatus
  | .patch cell base =>
    rehearsal.withHand base fun base =>
      rehearsal.write now cell fun resource => Task.patch resource base
  | .patchStatus cell base =>
    rehearsal.withHand base fun base =>
      rehearsal.write now cell fun resource => Task.patchStatus resource base
  | .finalize cell finalizer cleanup =>
    let finalizer : Finalizer Ledger :=
      { name := finalizer, cleanup := cleanup.map (·.asTask (some .cleanup)) }
    rehearsal.carryOut now cell finalizer.enforce .truth workFailed
  | .edit cell mutate persistent onChange =>
    let edit := Edit.runTask (mutate.asTask none) persistent
      (onChange.map (·.asCallback .onChange))
    rehearsal.carryOut now cell edit .outcome workFailed
  | .perform cell type work options =>
    rehearsal.carryOut now cell (Step.performAlone type (work.asWork type) options now)
      .outcome workFailed
  | .build engine registrations =>
    match Engine.build registrations with
    | .ok built =>
      (.engine built, { rehearsal with engines := (engine, built) :: rehearsal.engines })
    | .error error => (.failed (.config error), rehearsal)
  | .run engine key =>
    match rehearsal.engines.lookup engine with
    | none => (.failed .unknownName, rehearsal)
    | some engine =>
      let ((result, ledger), store) :=
        (engine.run now key rehearsal.ledger).run now rehearsal.store
      let rehearsal := { rehearsal with store, ledger }
      match result with
      | .ok requeue => (.requeue requeue, rehearsal)
      | .error stop => (.failed (failure .work stop), rehearsal)
  | .runIn engine cell =>
    match rehearsal.engines.lookup engine with
    | none => (.failed .unknownName, rehearsal)
    | some engine => rehearsal.carryOut now cell (engine.runIn now) .requeue workFailed

/-- What can be seen under a key. -/
def sight (store : Store) (key : Key) : Sight :=
  match store.peek key with
  | some resource => .readable resource
  | none => if store.contains key then .unreadable else .absent

/-- The keys where something else is to be seen than at the last observation, and what it is. -/
def news (rehearsal : Rehearsal) : List (Key × Sight) :=
  rehearsal.seen.filterMap fun (key, last) =>
    let now := sight rehearsal.store key
    if last = some now then none else some (key, now)

/-- Observes what has changed, and begins to look anew. -/
def observe (answer : Answer) (cell : Option String) (rehearsal : Rehearsal) :
    Observation × Rehearsal :=
  let observation := {
    answer
    entries := rehearsal.ledger.entries.reverse
    events := rehearsal.ledger.events.reverse
    calls := if rehearsal.store.calls = rehearsal.calls then none else some rehearsal.store.calls
    sights := rehearsal.news
    cell := cell.bind rehearsal.hand? }
  (observation,
    { rehearsal with
      ledger := { rehearsal.ledger with entries := [], events := [] }
      seen := rehearsal.seen.map fun (key, _) => (key, some (sight rehearsal.store key))
      calls := rehearsal.store.calls })

def step (rehearsal : Rehearsal) (now : Timestamp) (operation : Operation) (cell : Option String) :
    Observation × Rehearsal :=
  let rehearsal := { rehearsal with ledger := { rehearsal.ledger with now } }
  let (answer, rehearsal) := rehearsal.perform now operation
  rehearsal.observe answer cell

end Rehearsal

end Reconciliation
