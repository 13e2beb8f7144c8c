import Reckoner.Package.Bodies
import Reckoner.Service.Configuration
import Reckoner.Service.Message
import Reckoner.Service.Payload
import Reckoner.Service.Route

/-!
# The service

The service answers requests one after the other. What one request leaves for the next is the
registry of sessions, which is made when it is first needed, the time that has passed and the random
numbers that have been drawn.

A fault is not an answer: the configuration or an evaluation may give rise to one, and so may a body
or an answer with more levels than the limits of the service allow. Under the profile for tests it
is passed on, and otherwise it is answered by a status alone.
-/

set_option autoImplicit false

namespace Reckoner.Service

/-- The reasons why a request that was understood has no answer. -/
inductive Fault where
  | configuration (error : ConfigurationError)
  | evaluation (failure : EvaluationFailure)
  | nesting (excess : Excess)
  deriving Repr, DecidableEq

def Fault.message : Fault → String
  | configuration error => error.message
  | evaluation failure => failure.message
  | nesting excess => excess.message

/-- The service between two requests. -/
structure Application where
  configuration : Configuration
  registry : Option Registry := none
  now : Int := 0
  random : RandomSource
  limits : Limits

/-- The outcome of a request, and the service after it. -/
abbrev Handled := Except Fault Response × Application

/-! ## Bodies -/

/-- The reasons why a request has no payload: it is answered by a failure, or meets a fault. -/
inductive PayloadError where
  | failure (failure : Failure)
  | fault (fault : Fault)

/-- The payload of a request. Content that is not JSON, and a value that is empty, zero, false or
null, counts as an object without members. A body that is too long is a failure only where it would
be read; one without bytes has no length to be compared. -/
def Application.payload (application : Application) (request : Request) :
    Except PayloadError Json.Foreign :=
  if !request.isJson then .ok (.object [])
  else if !request.body.isEmpty &&
      application.configuration.maxContentLength < request.body.length then
    .error (.failure (.ofKind .tooLarge "Payload too large"))
  else
    match readBody application.limits.read request.body with
    | .ok value => .ok (if value.truthy then value else .object [])
    | .error .malformed => .ok (.object [])
    | .error (.tooDeep container) => .error (.fault (.nesting (.read container)))

/-- The failure of a request whose payload does not fit. -/
def invalidPayload (complaints : List Complaint) : Failure :=
  { Failure.withCode .invalid "calculator.invalid_request" "Invalid request payload" with
    details := .array (complaints.map Complaint.toJson) }

def Application.readPayload {α : Type} (application : Application) (request : Request)
    (read : Json.Foreign → Except (List Complaint) α) : Except PayloadError α := do
  match read (← application.payload request) with
  | .ok payload => return payload
  | .error complaints => throw (.failure (invalidPayload complaints))

/-! ## Failures of sessions -/

def registryFailure (error : RegistryError) : Failure :=
  match error with
  | .notFound => .withCode .notFound "calculator.session_not_found" error.message
  | .full => .withCode .invalid "calculator.session_limit" error.message

/-- The failure of a request for settings that do not exist. -/
def settingsFailure (error : SettingsError) : Failure :=
  .withCode .invalid "calculator.invalid_settings" error.message

namespace Application

/-- The service before its first request. -/
def start (configuration : Configuration) (random : RandomSource)
    (limits : Limits := .usual) : Application :=
  { configuration := configuration, random := random, limits := limits }

def advance (application : Application) (span : Int) : Application :=
  { application with now := application.now + span }

def answer (application : Application) (response : Response) : Handled :=
  (.ok response, application)

def refuse (application : Application) (failure : Failure) : Handled :=
  application.answer (.failure failure)

def fail (application : Application) (fault : Fault) : Handled :=
  (.error fault, application)

/-- The outcome of a request that needs something that the configuration has wrong. -/
def stop (application : Application) (error : ConfigurationError) : Handled :=
  application.fail (.configuration error)

/-- The registry of sessions, made now if it has not been needed before. -/
def openRegistry (application : Application) : Except ConfigurationError Registry :=
  match application.registry with
  | some registry => .ok registry
  | none => application.configuration.emptyRegistry

/-- The service with another state of its registry. -/
def withRegistry (application : Application) (registry : Registry) : Application :=
  { application with registry := some registry }

/-! ## Answers -/

def wholeOrNull : Option Int → Json
  | none => .null
  | some number => .int number

def truthOrNull : Option Bool → Json
  | none => .null
  | some truth => .bool truth

/-- A session with the settings of the configuration, but for those that a payload replaces. -/
def createSession (application : Application) (payload : SessionPayload) : Handled :=
  match application.configuration.defaultSettings with
  | .error error => application.stop error
  | .ok defaults =>
    match defaults.override (wholeOrNull payload.precision) (wholeOrNull payload.resultPrecision)
        (truthOrNull payload.degree) with
    | .error error => application.refuse (settingsFailure error)
    | .ok settings =>
      match application.openRegistry with
      | .error error => application.stop error
      | .ok registry =>
        let (outcome, registry) := registry.create application.now settings
        let after := application.withRegistry registry
        match outcome with
        | .error error => after.refuse (registryFailure error)
        | .ok id =>
          after.answer
            (.success 201 (.object [("session_id", .string id), ("settings", settings.toJson)]))

def deleteSession (application : Application) (id : String) : Handled :=
  match application.openRegistry with
  | .error error => application.stop error
  | .ok registry =>
    let (outcome, registry) := registry.delete id
    let after := application.withRegistry registry
    match outcome with
    | .error error => after.refuse (registryFailure error)
    | .ok () =>
      after.answer
        (.success 200 (.object [("session_id", .string id), ("deleted", .bool true)]))

def variableMembers (table : Variables) : Json :=
  .object (table.entries.map fun entry => (entry.1, .float entry.2))

def listVariables (application : Application) (id : String) : Handled :=
  match application.openRegistry with
  | .error error => application.stop error
  | .ok registry =>
    let (outcome, registry) := registry.get application.now id
    let after := application.withRegistry registry
    match outcome with
    | .error error => after.refuse (registryFailure error)
    | .ok calculator =>
      after.answer
        (.success 200
          (.object
            [("session_id", .string id), ("variables", variableMembers calculator.table)]))

def answerReport (application : Application) (session : Json)
    (outcome : Except EvaluationFailure Report) : Handled :=
  match outcome with
  | .error failure => application.fail (.evaluation failure)
  | .ok report =>
    application.answer (.success 200 (.object (("session_id", session) :: report.members)))

/-- An expression is evaluated by a calculator that nobody keeps. -/
def evaluateOnce (application : Application) (expression : String) : Handled :=
  match application.configuration.defaultSettings with
  | .error error => application.stop error
  | .ok settings =>
    let calculator : Calculator := { settings := settings }
    let (outcome, _, random) := calculator.evaluate application.random expression
    answerReport { application with random := random } .null outcome

def evaluateIn (application : Application) (id expression : String) : Handled :=
  match application.openRegistry with
  | .error error => application.stop error
  | .ok registry =>
    let (outcome, registry) := registry.get application.now id
    match outcome with
    | .error error => (application.withRegistry registry).refuse (registryFailure error)
    | .ok calculator =>
      let (outcome, calculator, random) := calculator.evaluate application.random expression
      let after := application.withRegistry (registry.store id calculator)
      answerReport { after with random := random } (.string id) outcome

def evaluate (application : Application) (payload : EvaluatePayload) : Handled :=
  match payload.session? with
  | none => application.evaluateOnce payload.expression
  | some id => application.evaluateIn id payload.expression

/-- An expression is put into postfix order. -/
def reorder (application : Application) (payload : PostfixPayload) : Handled :=
  match application.configuration.defaultSettings with
  | .error error => application.stop error
  | .ok _ =>
    let (tokens, reordered) := Calculator.convert payload.expression
    application.answer
      (.success 200
        (.object
          [("expression", .string payload.expression),
            ("infix", Json.strings (tokens.map Token.text)),
            ("postfix", Json.strings (reordered.map Token.text))]))

/-- A handler applied to the payload of a request, if that fits. -/
def withPayload {α : Type} (application : Application) (request : Request)
    (read : Json.Foreign → Except (List Complaint) α) (handle : Application → α → Handled) :
    Handled :=
  match application.readPayload request read with
  | .error (.failure failure) => application.refuse failure
  | .error (.fault fault) => application.fail fault
  | .ok payload => handle application payload

def nothingThere : Failure :=
  .ofKind .notFound "Resource not found"

def showHome (application : Application) : Handled :=
  match application.configuration.homePage with
  | .error error => application.stop error
  | .ok page => application.answer (.success 200 page)

/-- The outcome of a request at a place that takes its method. There are no assets. -/
def respondAt (application : Application) (request : Request) : Route → Handled
  | .home => application.showHome
  | .sessions => application.withPayload request SessionPayload.ofJson createSession
  | .session id => application.deleteSession id
  | .tableOf id => application.listVariables id
  | .evaluate => application.withPayload request EvaluatePayload.ofJson evaluate
  | .postfixOrder => application.withPayload request PostfixPayload.ofJson reorder
  | .asset _ => application.refuse nothingThere

/-- The outcome of a request with a method, before it is known who asked. -/
def respond (application : Application) (request : Request) (method : String) : Handled :=
  match Destination.ofTarget method request.target with
  | .nowhere => application.refuse nothingThere
  | .wrongMethod => application.answer (.bare 405)
  | .moved => application.answer (.bare 308)
  | .place route =>
    if method = "OPTIONS" then application.answer (.bare 200)
    else application.respondAt request route

/-- A response that can be written, and otherwise a fault. -/
def write (application : Application) (response : Response) : Except Fault Response :=
  if response.levels ≤ application.limits.written then .ok response
  else .error (.nesting .written)

/-- The outcome of a request. A fault is passed on under the profile for tests only, and the answer
to HEAD has no content, though it is written. -/
def handle (application : Application) (request : Request) : Handled :=
  let method := Text.upperCase request.method
  let (outcome, after) := application.respond request method
  match outcome.bind application.write with
  | .error fault =>
    if application.configuration.testing then (.error fault, after) else after.answer (.bare 500)
  | .ok response =>
    after.answer (if method = "HEAD" then response.withoutContent else response)

end Application

end Reckoner.Service
