import Reconciliation.Store.Basic

/-!
Programs that talk to a store one request at a time. A program is a tree of requests; `run` answers
them from a store that nobody else uses. `run_bind` splits a run where one program follows another.
-/
namespace Reconciliation

/-- What can be asked of a store. -/
inductive Request where
  | get (key : Key)
  | update (resource : Resource)
  | updateStatus (resource : Resource)
  | patch (resource base : Resource)
  | patchStatus (resource base : Resource)
  | insert (resource : Resource)
  | peek (key : Key)
  | delete (key : Key)
  | failOn (verb : Verb)
  | clearFailures
deriving DecidableEq

namespace Request

/-- What the answer to a request can be. -/
@[reducible] def Answer : Request → Type
  | .get _ | .update _ | .updateStatus _ | .patch .. | .patchStatus .. | .insert _ =>
    Except StoreError Resource
  | .peek _ => Option Resource
  | .delete _ => Except StoreError Unit
  | .failOn _ | .clearFailures => Unit

/-- The answer of a store to a request, and the store afterwards. -/
def serve (now : Timestamp) : (request : Request) → Store → request.Answer × Store
  | .get key, store => store.get key
  | .update resource, store => store.update resource
  | .updateStatus resource, store => store.updateStatus resource
  | .patch resource base, store => store.patch resource base
  | .patchStatus resource base, store => store.patchStatus resource base
  | .insert resource, store => store.insert resource
  | .peek key, store => (store.peek key, store)
  | .delete key, store => store.delete now key
  | .failOn verb, store => ((), store.failOn verb)
  | .clearFailures, store => ((), store.clearFailures)

end Request

/-- A program that ends with a value or makes a request and goes on with its answer. -/
inductive Program (α : Type) where
  | done (value : α)
  | call (request : Request) (next : request.Answer → Program α)

namespace Program

variable {α β γ : Type}

def bind : Program α → (α → Program β) → Program β
  | done value, f => f value
  | call request next, f => call request fun answer => (next answer).bind f

instance monad : Monad Program where
  pure := done
  bind := bind

def ask (request : Request) : Program request.Answer :=
  call request done

/-- Answers the requests of a program, all at the same time, from a store. -/
def run (now : Timestamp) : Program α → Store → α × Store
  | done value, store => (value, store)
  | call request next, store =>
    let (answer, store) := request.serve now store
    (next answer).run now store

theorem bind_done (program : Program α) : program.bind done = program := by
  induction program with
  | done => rfl
  | call request next ih => exact congrArg (call request) (funext ih)

theorem bind_bind (program : Program α) (f : α → Program β) (g : β → Program γ) :
    (program.bind f).bind g = program.bind fun value => (f value).bind g := by
  induction program with
  | done => rfl
  | call request next ih => exact congrArg (call request) (funext ih)

instance lawfulMonad : LawfulMonad Program :=
  LawfulMonad.mk' _ bind_done (fun _ _ => rfl) bind_bind

@[simp] theorem run_done (now : Timestamp) (value : α) (store : Store) :
    (done value).run now store = (value, store) := rfl

/-- A program runs on the store that the one before has left. -/
@[simp] theorem run_bind (now : Timestamp) (program : Program α) (f : α → Program β)
    (store : Store) :
    (program.bind f).run now store =
      (f (program.run now store).1).run now (program.run now store).2 := by
  induction program generalizing store with
  | done => rfl
  | call request next ih => exact ih _ _

@[simp] theorem run_ask (now : Timestamp) (request : Request) (store : Store) :
    (ask request).run now store = request.serve now store := rfl

end Program

end Reconciliation
