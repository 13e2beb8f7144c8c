import Reckoner.Json.Encoding
import Reckoner.Json.Reader

/-!
# Bodies in the web framework

The framework reads a body as JSON and writes an answer as JSON, and it does so by recursion. How
many levels of a value are within its reach depends on the platform and on the place that it is
called from, so the limits are a parameter of the service. All that is asked of them is that the
answers which echo nothing from outside can be written; the home page has most levels among these.

The bytes of a body are decoded first, and a body that cannot be decoded is no JSON.
-/

set_option autoImplicit false

namespace Reckoner.Service

/-- How many levels of a body can be read, and how many levels of an answer can be written. -/
structure Limits where
  read : Nat
  written : Nat
  ample : 5 ≤ written

/-- The limits of a service that is given no others, such as they are met in practice. What is proved
of a service does not rest on these numbers. -/
def Limits.usual : Limits :=
  ⟨975, 973, by decide⟩

/-- What is beyond a limit: a level of a body, or a level of an answer. -/
inductive Excess where
  | read (container : Json.Container)
  | written
  deriving Repr, DecidableEq

def Excess.name : Excess → String
  | read container => container.name
  | written => "answer"

def Excess.message : Excess → String
  | read container => (Json.ReadError.tooDeep container).message
  | written => "the answer has more levels than can be written"

/-- The bytes of a body. -/
abbrev Body := List UInt8

/-- A text is sent as the bytes of its UTF-8. -/
instance : Coe String Body where
  coe text := text.toUTF8.data.toList

/-- The value with at most the given levels that a body is. -/
def readBody (levels : Nat) (body : Body) : Except Json.ReadError Json.Foreign :=
  match Json.decode? body with
  | some text => Json.read levels text
  | none => .error .malformed

end Reckoner.Service
