import Reconciliation.Store.Program

/-!
Tasks: what the engine and its users do with one resource. A task works on a copy of the resource
that it shares with whoever runs it, makes requests to the store, and keeps records in a state of
its own. It ends with a value, with an error, or with a panic; what it did to the resource and the
state until then remains in each case.
-/
namespace Reconciliation

/-- What a task works on. -/
structure Scene (σ : Type) where
  resource : Resource
  state : σ

/-- What stands for the trace of a panic of which none is given. -/
def backtrace : String := "<backtrace>"

/-- What a panic carries, and the trace that is taken of it. -/
inductive Payload where
  | text (words : String) (trace : String := backtrace)
  /-- Something that is no text. -/
  | other (trace : String := backtrace)
deriving DecidableEq, Repr

namespace Payload

/-- The words for a panic. -/
def message : Payload → String
  | text words _ => words
  | other _ => "non-string panic payload"

/-- Where the panic arose, and how it came to that. -/
def trace : Payload → String
  | text _ trace => trace
  | other trace => trace

end Payload

/-- Why a task ends without a value. -/
inductive Stop (ε : Type) where
  | panic (payload : Payload)
  | error (cause : ε)

def Stop.map {ε ε' : Type} (f : ε → ε') : Stop ε → Stop ε'
  | .panic payload => .panic payload
  | .error cause => .error (f cause)

/-- Work on one resource that ends with a value of type `α`, an error of type `ε` or a panic. -/
def Task (σ ε α : Type) : Type :=
  Scene σ → Program (Except (Stop ε) α × Scene σ)

namespace Task

variable {σ ε ε' α β : Type}

def pure (value : α) : Task σ ε α :=
  fun scene => .done (.ok value, scene)

def stop (reason : Stop ε) : Task σ ε α :=
  fun scene => .done (.error reason, scene)

/-- One task after another, unless the first one ends without a value. -/
def bind (task : Task σ ε α) (f : α → Task σ ε β) : Task σ ε β :=
  fun scene => (task scene).bind fun
    | (.ok value, scene) => f value scene
    | (.error reason, scene) => .done (.error reason, scene)

instance monad : Monad (Task σ ε) where
  pure := pure
  bind := bind

theorem pure_bind (value : α) (f : α → Task σ ε β) : (pure value).bind f = f value := rfl

theorem bind_pure (task : Task σ ε α) : task.bind pure = task := by
  funext scene
  have hdone : (fun ended : Except (Stop ε) α × Scene σ =>
      match ended with
      | (.ok value, scene) => pure value scene
      | (.error reason, scene) => .done (.error reason, scene)) = Program.done := by
    funext ⟨result, scene⟩
    cases result <;> rfl
  exact (congrArg (task scene).bind hdone).trans (Program.bind_done (task scene))

theorem bind_bind {γ : Type} (task : Task σ ε α) (f : α → Task σ ε β) (g : β → Task σ ε γ) :
    (task.bind f).bind g = task.bind fun value => (f value).bind g := by
  funext scene
  refine (Program.bind_bind (task scene) _ _).trans (congrArg (task scene).bind ?_)
  funext ⟨result, scene⟩
  cases result <;> rfl

instance lawfulMonad : LawfulMonad (Task σ ε) :=
  LawfulMonad.mk' _ bind_pure pure_bind bind_bind

def fail (cause : ε) : Task σ ε α := stop (.error cause)

def panic (payload : Payload) : Task σ ε α := stop (.panic payload)

def resource : Task σ ε Resource :=
  fun scene => .done (.ok scene.resource, scene)

def setResource (resource : Resource) : Task σ ε Unit :=
  fun scene => .done (.ok (), { scene with resource })

def modifyResource (f : Resource → Resource) : Task σ ε Unit :=
  fun scene => .done (.ok (), { scene with resource := f scene.resource })

/-- Changes the state, with the resource in view. -/
def modifyState (f : Resource → σ → σ) : Task σ ε Unit :=
  fun scene => .done (.ok (), { scene with state := f scene.resource scene.state })

/-- Looks at the resource and the state, and may change the state. -/
def observe (f : Resource → σ → α × σ) : Task σ ε α :=
  fun scene =>
    let (value, state) := f scene.resource scene.state
    .done (.ok value, { scene with state })

def ask (request : Request) : Task σ ε request.Answer :=
  fun scene => .call request fun answer => .done (.ok answer, scene)

def get (key : Key) : Task σ ε (Except StoreError Resource) := ask (.get key)

/-- Writes everything but the status of a resource. -/
def update (resource : Resource) : Task σ ε (Except StoreError Resource) := ask (.update resource)

def updateStatus (resource : Resource) : Task σ ε (Except StoreError Resource) :=
  ask (.updateStatus resource)

/-- Writes what has changed since `base`, the status apart. -/
def patch (resource base : Resource) : Task σ ε (Except StoreError Resource) :=
  ask (.patch resource base)

/-- Writes what has changed in the status since `base`. -/
def patchStatus (resource base : Resource) : Task σ ε (Except StoreError Resource) :=
  ask (.patchStatus resource base)

/-- Puts a resource into the store, whatever is there. -/
def insert (resource : Resource) : Task σ ε (Except StoreError Resource) := ask (.insert resource)

/-- The resource under a key, if it can be read; the store does not count this. -/
def peek (key : Key) : Task σ ε (Option Resource) := ask (.peek key)

def delete (key : Key) : Task σ ε (Except StoreError Unit) := ask (.delete key)

def failOn (verb : Verb) : Task σ ε Unit := ask (.failOn verb)

def clearFailures : Task σ ε Unit := ask .clearFailures

def ofExcept : Except ε α → Task σ ε α
  | .ok value => pure value
  | .error cause => fail cause

/-- Ends with the value that is given, or panics. -/
def orPanic (words : ε' → String) : Except ε' α → Task σ ε α
  | .ok value => pure value
  | .error cause => panic (.text (words cause))

/-- Puts errors in other terms. -/
def mapError (f : ε → ε') (task : Task σ ε α) : Task σ ε' α :=
  fun scene => (task scene).bind fun
    | (.ok value, scene) => .done (.ok value, scene)
    | (.error reason, scene) => .done (.error (reason.map f), scene)

/-- A task that cannot end with an error, among tasks that can. -/
def widen (task : Task σ Empty α) : Task σ ε α :=
  task.mapError Empty.elim

/-- Takes an error for a value; a panic goes on. -/
def attempt (task : Task σ ε α) : Task σ ε' (Except ε α) :=
  fun scene => (task scene).bind fun
    | (.ok value, scene) => .done (.ok (.ok value), scene)
    | (.error (.panic payload), scene) => .done (.error (.panic payload), scene)
    | (.error (.error cause), scene) => .done (.ok (.error cause), scene)

/-- Takes an error or a panic for a value. -/
def contain (task : Task σ ε α) : Task σ ε' (Except (Stop ε) α) :=
  fun scene => (task scene).bind fun (outcome, scene) => .done (.ok outcome, scene)

/-- Works on another resource, which is returned, and puts the present one back afterwards. -/
def onCopy (copy : Resource) (task : Task σ ε α) : Task σ ε (α × Resource) :=
  fun scene => (task { scene with resource := copy }).bind fun
    | (.ok value, inner) =>
      .done (.ok (value, inner.resource), { inner with resource := scene.resource })
    | (.error reason, inner) => .done (.error reason, { inner with resource := scene.resource })

end Task

end Reconciliation
