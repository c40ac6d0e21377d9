import Reconciliation.Json.Members
import Reconciliation.Text.Digits

/-!
Places in documents. A path is a list of keys; on the way to a place that is changed, whatever is no
object is replaced by an empty one. A pointer is a path in one text, whose keys may also be indices
of arrays.
-/
namespace Reconciliation.Json

def setAt (value : Json) : (path : List String) → (document : Json) → Json
  | [], _ => value
  | key :: path, document =>
    let inner := (document.members.get? key).getD .null
    .object (Object.insert key (setAt value path inner) document.members)

/-- Removes the member at a path; at the empty path there is none. -/
def unsetAt : (path : List String) → (document : Json) → Json
  | [], document => document
  | [key], document => .object (document.members.erase key)
  | key :: path, document =>
    let inner := (document.members.get? key).getD .null
    .object (Object.insert key (unsetAt path inner) document.members)

/-- Reads a key of a pointer: a tilde stands with a digit after it for a slash or a tilde. -/
def unescapeKey : List Char → List Char
  | '~' :: '1' :: rest => '/' :: unescapeKey rest
  | '~' :: '0' :: rest => '~' :: unescapeKey rest
  | c :: rest => c :: unescapeKey rest
  | [] => []

def index? (key : String) : Option Nat :=
  if key == "0" || key.toList.head? != some '0' then Text.unsigned64? key.toList else none

def at? : (path : List String) → (document : Json) → Option Json
  | [], document => some document
  | key :: path, .object members => (members.get? key).bind (at? path)
  | key :: path, .array items => ((index? key).bind (items[·]?)).bind (at? path)
  | _ :: _, _ => none

/-- The keys of a pointer, which begins with a slash unless it is empty. -/
def pointerKeys (pointer : String) : Option (List String) :=
  match pointer.splitOn "/" with
  | [""] => some []
  | "" :: keys => some (keys.map fun key => String.ofList (unescapeKey key.toList))
  | _ => none

/-- The document that a pointer points to. -/
def pointee? (document : Json) (pointer : String) : Option Json :=
  (pointerKeys pointer).bind fun path => document.at? path

end Reconciliation.Json
