import Backlog.Error
import Backlog.Task

/-!
# Requests to a store

What a store can be asked, the type of the answer to each request, and the three ways in which a call ends: with an
answer, with an error, or in a crash that takes its caller down.
-/

namespace Backlog.Store

/-- A request to a store of tasks. -/
inductive Request where
  | create (new : NewTask)
  | get (id : Int)
  /-- Like `get`, but past every cache. -/
  | getFresh (id : Int)
  | list
  | listByStatus (status : Status)
  | updateText (id : Int) (text : String)
  | updateStatus (id : Int) (update : StatusUpdate)
  | delete (id : Int)
deriving DecidableEq, Repr

namespace Request

/-- The type of the answer to a request. -/
abbrev Answer : Request → Type
  | create _ => Task
  | get _ => Option Task
  | getFresh _ => Option Task
  | list => List Task
  | listByStatus _ => List Task
  | updateText _ _ => Unit
  | updateStatus _ _ => Unit
  | delete _ => Bool

/-- The name of a request. -/
def name : Request → String
  | create _ => "create"
  | get _ => "get"
  | getFresh _ => "get_fresh"
  | list => "list"
  | listByStatus _ => "list_by_status"
  | updateText _ _ => "update_text"
  | updateStatus _ _ => "update_status"
  | delete _ => "delete"

/-- The task that a request is about, if it is about one. -/
def id? : Request → Option Int
  | get id => some id
  | getFresh id => some id
  | updateText id _ => some id
  | updateStatus id _ => some id
  | delete id => some id
  | _ => none

/-- The status that a request asks for, if it asks for one. -/
def status? : Request → Option Status
  | listByStatus status => some status
  | updateStatus _ update => some update.status
  | _ => none

/-- Whether a request may change the store. -/
def isWrite : Request → Bool
  | create _ => true
  | updateText _ _ => true
  | updateStatus _ _ => true
  | delete _ => true
  | _ => false

end Request

/-- How a call ends. -/
inductive Outcome (α : Type) where
  | answered (result : Except StoreError α)
  /-- The call broke down with a message, and its caller with it. -/
  | crashed (text : String)

namespace Outcome

/-- A call that ends with an answer. -/
def ok {α : Type} (a : α) : Outcome α := .answered (.ok a)

/-- A call that ends with an error. -/
def error {α : Type} (e : StoreError) : Outcome α := .answered (.error e)

/-- Goes on with the answer of a call. -/
def bind {α β : Type} (o : Outcome α) (f : α → Outcome β) : Outcome β :=
  match o with
  | .answered (.ok a) => f a
  | .answered (.error e) => .answered (.error e)
  | .crashed text => .crashed text

instance : Monad Outcome where
  pure := ok
  bind := bind

/-- The answer of a call with something done to it. -/
def mapOk {α β : Type} (f : α → β) (o : Outcome α) : Outcome β := o.bind fun a => ok (f a)

end Outcome

end Backlog.Store
