import Reckoner.Json.Foreign

/-!
# Failures

A request that is refused is answered with a message for people, a code for programs, a status and
details. Each kind of failure has a code and a status of its own, which a failure may replace.
-/

set_option autoImplicit false

namespace Reckoner.Service

inductive FailureKind where
  | general
  | invalid
  | notFound
  | tooLarge
  deriving Repr, DecidableEq

namespace FailureKind

def code : FailureKind → String
  | general => "error"
  | invalid => "validation_error"
  | notFound => "not_found"
  | tooLarge => "payload_too_large"

def status : FailureKind → Int
  | general | invalid => 400
  | notFound => 404
  | tooLarge => 413

end FailureKind

/-- A failure; its details are null if there are none. They may echo what a request holds. -/
structure Failure where
  message : String
  code : String
  status : Int
  details : Json.Foreign := .null
  deriving Repr

namespace Failure

def ofKind (kind : FailureKind) (message : String) : Failure :=
  { message := message, code := kind.code, status := kind.status }

/-- A failure with the status of its kind and a code of its own. -/
def withCode (kind : FailureKind) (code message : String) : Failure :=
  { message := message, code := code, status := kind.status }

/-- Details as they are shown: an empty object if there are none. -/
def detailsOrEmpty {Str : Type} : Json Str → Json Str
  | .null => .object []
  | details => details

/-- The object that shows a code, a message and details, under names made of texts. -/
def showWith {Str : Type} (text : String → Str) (code message details : Json Str) : Json Str :=
  .object
    [(text "code", code), (text "message", message), (text "details", detailsOrEmpty details)]

def shown (code message details : Json) : Json :=
  showWith id code message details

def toJson (failure : Failure) : Json.Foreign :=
  showWith Text.CodePoints.ofString (.string failure.code) (.string failure.message) failure.details

end Failure

end Reckoner.Service
