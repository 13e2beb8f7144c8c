import Reckoner.Package.Validation

/-!
# Payloads

What the bodies of requests say. A payload is an object with known members, some of which may be
missing. All problems are reported at once: first those of the known members in the order in which
they are declared, then the unknown members in the order in which they were given.
-/

set_option autoImplicit false

namespace Reckoner.Service

/-- The least number of decimal places that a payload may ask for, which stands for none. -/
def leastPlaces : Int := -1

/-- The most decimal places that a payload may ask for. -/
def mostPlaces : Int := 15

/-- A number of decimal places. -/
def readPlaces : Json.Foreign → Except Problem Int :=
  readBoundedWhole leastPlaces mostPlaces

/-- The most characters of an expression. -/
def maxExpressionLength : Nat := 1024

/-- An expression: a text that is neither empty nor too long. -/
def readExpression : Json.Foreign → Except Problem String :=
  readBoundedText 1 maxExpressionLength

structure SessionPayload where
  precision : Option Int
  resultPrecision : Option Int
  degree : Option Bool
  deriving Repr, DecidableEq

/-- An expression to be evaluated, in a session if there is one. -/
structure EvaluatePayload where
  expression : String
  sessionId : Option String
  deriving Repr, DecidableEq

/-- An expression to be put into postfix order. -/
structure PostfixPayload where
  expression : String
  deriving Repr, DecidableEq

namespace SessionPayload

def name : String := "SessionPayload"

def ofJson : Json.Foreign → Except (List Complaint) SessionPayload :=
  readObject name fun members =>
    let precision := optional members "precision" readPlaces
    let resultPrecision := optional members "result_precision" readPlaces
    let degree := optional members "degree" readTruth
    let unknown := unknownMembers members ["precision", "result_precision", "degree"]
    match precision, resultPrecision, degree, unknown with
    | .ok precision, .ok resultPrecision, .ok degree, [] =>
      .ok ⟨precision, resultPrecision, degree⟩
    | _, _, _, _ =>
      .error (complaintOf precision ++ complaintOf resultPrecision ++ complaintOf degree ++ unknown)

end SessionPayload

namespace EvaluatePayload

def name : String := "EvaluatePayload"

def ofJson : Json.Foreign → Except (List Complaint) EvaluatePayload :=
  readObject name fun members =>
    let expression := required members "expression" readExpression
    let sessionId := optional members "session_id" readText
    let unknown := unknownMembers members ["expression", "session_id"]
    match expression, sessionId, unknown with
    | .ok expression, .ok sessionId, [] => .ok ⟨expression, sessionId⟩
    | _, _, _ => .error (complaintOf expression ++ complaintOf sessionId ++ unknown)

/-- The session that is meant; an empty identifier means none. -/
def session? (payload : EvaluatePayload) : Option String :=
  payload.sessionId.filter fun id => !id.isEmpty

end EvaluatePayload

namespace PostfixPayload

def name : String := "PostfixPayload"

def ofJson : Json.Foreign → Except (List Complaint) PostfixPayload :=
  readObject name fun members =>
    let expression := required members "expression" readExpression
    let unknown := unknownMembers members ["expression"]
    match expression, unknown with
    | .ok expression, [] => .ok ⟨expression⟩
    | _, _ => .error (complaintOf expression ++ unknown)

end PostfixPayload

end Reckoner.Service
