import Reckoner.Package.Requests

/-!
# Routes

The places that the service answers at, and the method that each of them is made for.
-/

set_option autoImplicit false

namespace Reckoner.Service

/-- The places that the service answers at. -/
inductive Route where
  | home
  | sessions
  | session (id : String)
  | tableOf (id : String)
  | evaluate
  | postfixOrder
  | asset (path : Path)
  deriving Repr, DecidableEq

namespace Route

/-- The place that a path names; a segment that stands for a session or an asset is not empty. -/
def ofPath? : Path → Option Route
  | [""] => some home
  | ["api", "calculator", "sessions"] => some sessions
  | ["api", "calculator", "evaluate"] => some evaluate
  | ["api", "calculator", "postfix"] => some postfixOrder
  | ["api", "calculator", "sessions", id] => if id.isEmpty then none else some (session id)
  | ["api", "calculator", "sessions", id, "variables"] =>
    if id.isEmpty then none else some (tableOf id)
  | "static" :: first :: rest => if first.isEmpty then none else some (asset (first :: rest))
  | _ => none

/-- The method that a place is made for. -/
def method : Route → String
  | home | tableOf _ | asset _ => "GET"
  | sessions | evaluate | postfixOrder => "POST"
  | session _ => "DELETE"

def places : Places Route where
  ofPath? := ofPath?
  method := method
  home := home

end Route

/-- Where a request with a method and a target leads. -/
def Destination.ofTarget (method target : String) : Destination Route :=
  Route.places.lead method target

end Reckoner.Service
