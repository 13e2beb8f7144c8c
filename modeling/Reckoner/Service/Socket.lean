import Reckoner.Numeral

/-!
# Where the service listens

The service listens at a numbered socket. The number is read from one of two variables of the
environment, of which the service's own comes first. A variable that is empty counts as one that is
missing.
-/

set_option autoImplicit false

namespace Reckoner.Service

structure RefusedSocket where
  text : String
  deriving Repr, DecidableEq

def RefusedSocket.message (refused : RefusedSocket) : String :=
  "Invalid port '" ++ refused.text ++ "'. Set CALC_SERVER_PORT to a number."

def defaultSocket : String := "5001"

/-- A variable's text, unless it is empty. -/
def nonEmpty (text : Option String) : Option String :=
  text.filter fun text => !text.isEmpty

/-- The number of the socket that the service's own variable sets, or else the general one. -/
def readSocket (own general : Option String) : Except RefusedSocket Int :=
  let text := ((nonEmpty own).or (nonEmpty general)).getD defaultSocket
  match readInt? text with
  | some number => .ok number
  | none => .error ⟨text⟩

end Reckoner.Service
