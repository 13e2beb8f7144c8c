import Reckoner.Proofs.Json.Nesting
import Reckoner.Proofs.Service.Posting
import Reckoner.Proofs.Service.Schema
import Reckoner.Proofs.Service.Standing
import Reckoner.Proofs.Service.Writing

/-!
# Refused payloads

A body that is no payload of the place it is sent to is answered by status 400 with the complaints
about it, and leaves the service as it was. There are three exceptions. A body that is no JSON, or is
a value that counts as not given, stands for an object without members, which is a payload where
nothing is needed. A body with more levels than can be read meets a fault. And so does one whose
refusal has more levels than can be written, which takes a body that opens nearly as many.
-/

set_option autoImplicit false

namespace Reckoner.Service

/-- A body is the text of a value, with however many levels. -/
def Body.Writes (body : Body) (value : Json.Foreign) : Prop :=
  ∃ text levels, Json.decode? body = some text ∧ Json.IsText levels value text

/-- A body with more levels than are read. -/
def Body.TooDeep (body : Body) (levels : Nat) : Prop :=
  ∃ container, readBody levels body = .error (.tooDeep container)

/-- How often a body opens an array, an object or a constant. -/
def Body.openings (body : Body) : Nat :=
  (Json.decode? body).elim 0 Json.openings

/-- A body that counts as nothing at a place where nothing is needed. -/
def Route.Forgives (route : Route) (body : Body) : Prop :=
  route = .sessions ∧ ∀ value, Body.Writes body value → value.truthy = false

variable {body : Body} {levels : Nat} {value : Json.Foreign}

theorem readBody_of_decoded {text : Text.CodePoints} (decoded : Json.decode? body = some text) :
    readBody levels body = Json.read levels text := by
  rw [readBody, decoded]

theorem writes_of_readBody (found : readBody levels body = .ok value) : Body.Writes body value := by
  cases decoded : Json.decode? body with
  | none =>
    rw [readBody, decoded] at found
    cases found
  | some text =>
    rw [readBody_of_decoded decoded] at found
    exact ⟨text, levels, decoded, Json.read_eq_ok_iff.1 found⟩

theorem readBody_of_writes (writes : Body.Writes body value) (levels : Nat) :
    readBody levels body = .ok value ∨ Body.TooDeep body levels := by
  obtain ⟨text, deeper, decoded, isText⟩ := writes
  rw [Body.TooDeep, readBody_of_decoded decoded]
  exact Json.read_of_isText isText

/-- A body that opens no more than there are levels is not too deep. -/
theorem not_tooDeep_of_openings (few : Body.openings body ≤ levels) :
    ¬ Body.TooDeep body levels := by
  rintro ⟨container, deep⟩
  cases decoded : Json.decode? body with
  | none =>
    rw [readBody, decoded] at deep
    cases deep
  | some text =>
    rw [readBody_of_decoded decoded] at deep
    rw [Body.openings, decoded] at few
    exact Nat.not_lt.2 few (Json.lt_openings_of_tooDeep deep)

theorem Body.Writes.levels_le (writes : Body.Writes body value) :
    value.levels ≤ Body.openings body + 1 := by
  obtain ⟨text, deeper, decoded, isText⟩ := writes
  rw [Body.openings, decoded]
  exact isText.levels_le

namespace Application

variable {application : Application} {request : Request} {route : Route} {schema : Schema}

theorem payload_eq (json : request.isJson = true)
    (fits : request.body.length ≤ application.configuration.maxContentLength) :
    application.payload request =
      match readBody application.limits.read request.body with
      | .ok value => .ok (if value.truthy then value else .object [])
      | .error .malformed => .ok (.object [])
      | .error (.tooDeep container) => .error (.fault (.nesting (.read container))) := by
  have isShort : (!request.body.isEmpty &&
      decide (application.configuration.maxContentLength < request.body.length)) = false := by
    rw [decide_eq_false (Int.not_lt.2 fits), Bool.and_false]
  rw [payload, json, isShort]
  rfl

/-- The payload of a request whose content is said to be JSON: the value that the body writes, if
that counts as given; an object without members, if the body writes no such value; or none, if it is
too deep. -/
theorem payload_cases (json : request.isJson = true)
    (fits : request.body.length ≤ application.configuration.maxContentLength) :
    (∃ value, Body.Writes request.body value ∧ value.truthy = true ∧
        ¬ Body.TooDeep request.body application.limits.read ∧
        application.payload request = .ok value) ∨
      ((∀ value, Body.Writes request.body value → value.truthy = false) ∧
        ¬ Body.TooDeep request.body application.limits.read ∧
        application.payload request = .ok (.object [])) ∨
      ∃ container, readBody application.limits.read request.body = .error (.tooDeep container) ∧
        application.payload request = .error (.fault (.nesting (.read container))) := by
  have same := payload_eq json fits
  by_cases deep : Body.TooDeep request.body application.limits.read
  · obtain ⟨container, isDeep⟩ := deep
    rw [isDeep] at same
    exact .inr (.inr ⟨container, isDeep, same⟩)
  · cases found : readBody application.limits.read request.body with
    | ok value =>
      rw [found] at same
      cases given : value.truthy with
      | true =>
        refine .inl ⟨value, writes_of_readBody found, given, deep, ?_⟩
        simpa only [given, if_true] using same
      | false =>
        have understood : application.payload request = .ok (.object []) := by
          simpa only [given, Bool.false_eq_true, if_false] using same
        refine .inr (.inl ⟨?_, deep, understood⟩)
        intro other writes
        have isOther := (readBody_of_writes writes _).resolve_right deep
        rw [found] at isOther
        obtain rfl := Except.ok.inj isOther
        exact given
    | error error =>
      cases error with
      | malformed =>
        rw [found] at same
        refine .inr (.inl ⟨?_, deep, same⟩)
        intro value writes
        have isValue := (readBody_of_writes writes _).resolve_right deep
        rw [found] at isValue
        cases isValue
      | tooDeep container => exact absurd ⟨container, found⟩ deep

theorem withPayload_of_refused {Payload : Type}
    {read : Json.Foreign → Except (List Complaint) Payload} (describes : schema.Describes read)
    {value : Json.Foreign} (understood : application.payload request = .ok value)
    (refused : schema.Refuses value) (handle : Application → Payload → Handled) :
    application.withPayload request read handle =
      (.ok (.failure (invalidPayload (schema.complaints value))), application) := by
  have unread : application.readPayload request read =
      .error (.failure (invalidPayload (schema.complaints value))) := by
    unfold readPayload
    rw [understood]
    simp only [bind, Except.bind, describes.refused value refused]
    rfl
  unfold withPayload
  rw [unread]
  rfl

/-- A place refuses what its schema refuses. -/
theorem respondAt_of_refused (takes : route.schema? = some schema) {value : Json.Foreign}
    (understood : application.payload request = .ok value) (refused : schema.Refuses value) :
    application.respondAt request route =
      (.ok (.failure (invalidPayload (schema.complaints value))), application) := by
  cases route with
  | sessions =>
    obtain rfl := Option.some.inj takes
    exact withPayload_of_refused SessionPayload.describes understood refused _
  | evaluate =>
    obtain rfl := Option.some.inj takes
    exact withPayload_of_refused EvaluatePayload.describes understood refused _
  | postfixOrder =>
    obtain rfl := Option.some.inj takes
    exact withPayload_of_refused PostfixPayload.describes understood refused _
  | _ => cases takes

theorem withPayload_of_fault {Payload : Type} {read : Json.Foreign → Except (List Complaint) Payload}
    {fault : Fault} (faulty : application.payload request = .error (.fault fault))
    (handle : Application → Payload → Handled) :
    application.withPayload request read handle = (.error fault, application) := by
  unfold withPayload readPayload
  rw [faulty]
  rfl

theorem respondAt_of_fault (takes : route.schema? = some schema) {fault : Fault}
    (faulty : application.payload request = .error (.fault fault)) :
    application.respondAt request route = (.error fault, application) := by
  cases route with
  | sessions => exact withPayload_of_fault faulty _
  | evaluate => exact withPayload_of_fault faulty _
  | postfixOrder => exact withPayload_of_fault faulty _
  | _ => cases takes

/-- An object without members lacks something, unless it is to create a session. -/
theorem refuses_empty (takes : route.schema? = some schema) (needs : route ≠ .sessions) :
    schema.Refuses (.object []) := by
  cases route with
  | sessions => exact absurd rfl needs
  | evaluate =>
    obtain rfl := Option.some.inj takes
    exact .missing List.mem_cons_self rfl rfl
  | postfixOrder =>
    obtain rfl := Option.some.inj takes
    exact .missing List.mem_cons_self rfl rfl
  | _ => cases takes

/-- The refusal of a value has four levels more than the value, and five at least. -/
theorem levels_refusal_le (schema : Schema) {value : Json.Foreign} {bound : Nat}
    (positive : 1 ≤ bound) (few : value.levels ≤ bound) :
    (Response.failure (invalidPayload (schema.complaints value))).levels ≤ bound + 4 :=
  (levels_invalidPayload_le_iff positive).2 fun _ complained =>
    Nat.le_trans (Schema.levels_input_le complained) few

/-- In any state, a request whose body is no payload is refused with complaints and changes nothing.
The refusal is the answer if it can be written, as that of a body which opens few arrays, objects and
constants can be, and otherwise there is a fault. A body that is forgiven creates a session instead,
as an object without members does, and one with more levels than are read meets a fault. -/
theorem invalid_payload_refused (posts : request.PostsTo route)
    (takes : route.schema? = some schema) (json : request.isJson = true)
    (fits : request.body.length ≤ application.configuration.maxContentLength)
    (invalid : ∀ value, Body.Writes request.body value → schema.Refuses value) :
    (¬ Body.TooDeep request.body application.limits.read → ¬ route.Forgives request.body →
        ∃ complaints, complaints ≠ [] ∧
          let refusal : Response := .failure ⟨"Invalid request payload",
            "calculator.invalid_request", 400, .array (complaints.map Complaint.toJson)⟩
          refusal.levels ≤ Body.openings request.body + 5 ∧
            (refusal.levels ≤ application.limits.written →
              application.handle request = (.ok refusal, application)) ∧
            (application.limits.written < refusal.levels →
              application.handle request =
                (application.configuration.told (.error (.nesting .written)), application))) ∧
      (¬ Body.TooDeep request.body application.limits.read → route.Forgives request.body →
        let created := application.createSession ⟨none, none, none⟩
        application.handle request = (application.configuration.told created.1, created.2)) ∧
      (∀ container, readBody application.limits.read request.body = .error (.tooDeep container) →
        application.handle request =
          (application.configuration.told (.error (.nesting (.read container))), application)) := by
  rcases payload_cases json fits with ⟨value, writes, given, shallow, understood⟩ |
    ⟨nothing, shallow, understood⟩ | ⟨container, deep, faulty⟩
  · refine ⟨?_, ?_, ?_⟩
    · intro _ _
      have refused := invalid value writes
      refine ⟨_, Schema.refuses_iff.1 refused, ?_,
        handle_of_responded posts (respondAt_of_refused takes understood refused)⟩
      exact levels_refusal_le schema (Nat.le_add_left 1 _) writes.levels_le
    · rintro _ ⟨-, nothing⟩
      rw [nothing value writes] at given
      cases given
    · intro container deep
      exact absurd ⟨container, deep⟩ shallow
  · refine ⟨?_, ?_, ?_⟩
    · intro _ unforgiven
      have refused := refuses_empty takes fun isSessions => unforgiven ⟨isSessions, nothing⟩
      refine ⟨_, Schema.refuses_iff.1 refused, ?_,
        handle_of_responded posts (respondAt_of_refused takes understood refused)⟩
      exact levels_refusal_le schema (Nat.le_add_left 1 _) (Nat.le_add_left 1 _)
    · rintro _ ⟨rfl, -⟩
      have responded : application.respondAt request .sessions =
          application.createSession ⟨none, none, none⟩ := by
        rw [respondAt, withPayload, readPayload, understood]
        rfl
      rw [handle_of_postsTo posts, responded, bind_write_createSession]
    · intro container deep
      exact absurd ⟨container, deep⟩ shallow
  · refine ⟨?_, ?_, ?_⟩
    · intro shallow
      exact absurd ⟨container, deep⟩ shallow
    · intro shallow
      exact absurd ⟨container, deep⟩ shallow
    · intro other isOther
      rw [deep] at isOther
      cases isOther
      rw [handle_of_postsTo posts, respondAt_of_fault takes faulty]
      rfl

/-- A request to create a session with a body that is said to be JSON. -/
def sessionRequest (body : String) : Request where
  method := "POST"
  target := "/api/calculator/sessions"
  body := body
  contentType := some "application/json"

/-- A session is not created with an array in place of an object. -/
theorem invalid_payload_refused_of_array :
    let application := (start brief (.cycling [])).run twoSessions
    ∃ complaints, complaints ≠ [] ∧ application.handle (sessionRequest "[1]") =
      (.ok (.failure ⟨"Invalid request payload", "calculator.invalid_request", 400,
        .array (complaints.map Complaint.toJson)⟩), application) := by
  intro application
  have opens : Body.openings (sessionRequest "[1]").body = 1 := by decide +kernel
  have limits : application.limits = .usual :=
    (lasting_run brief (.cycling []) .usual twoSessions).limits
  have shallow : ¬ Body.TooDeep (sessionRequest "[1]").body application.limits.read :=
    not_tooDeep_of_openings (by rw [opens, limits]; decide)
  have found : readBody application.limits.read (sessionRequest "[1]").body =
      .ok (.array [.int 1]) := by
    rw [limits]
    rfl
  have invalid (value : Json.Foreign) (writes : Body.Writes (sessionRequest "[1]").body value) :
      SessionPayload.schema.Refuses value := by
    have isValue := (readBody_of_writes writes _).resolve_right shallow
    rw [found] at isValue
    obtain rfl := Except.ok.inj isValue
    exact .noObject (by decide)
  have unforgiven : ¬ Route.Forgives .sessions (sessionRequest "[1]").body := by
    rintro ⟨-, nothing⟩
    have empty := nothing _ (writes_of_readBody found)
    cases empty
  obtain ⟨complaints, some, few, written, -⟩ := (invalid_payload_refused ⟨rfl, by decide +kernel⟩ rfl
    (by decide +kernel) (by decide +kernel) invalid).1 shallow unforgiven
  rw [opens] at few
  exact ⟨complaints, some, written (Nat.le_trans few (by rw [limits]; decide))⟩

/-- A session is created with a body that is no JSON. -/
theorem malformed_body_creates_session :
    let handled := (start brief (.cycling [])).handle (sessionRequest "not json")
    (sessionRequest "not json").PostsTo .sessions ∧
      (sessionRequest "not json").isJson = true ∧
      (∀ value, ¬ Body.Writes (sessionRequest "not json").body value) ∧
      handled.1.toOption.map (·.status) = some 201 ∧
      handled.2.entries.map (·.id) = [sessionId 1] := by
  refine ⟨⟨rfl, by decide +kernel⟩, by decide +kernel, ?_, by decide +kernel, by decide +kernel⟩
  intro value writes
  have shallow : ¬ Body.TooDeep (sessionRequest "not json").body Limits.usual.read :=
    not_tooDeep_of_openings (by decide +kernel)
  have found : readBody Limits.usual.read (sessionRequest "not json").body = .error .malformed := rfl
  have isValue := (readBody_of_writes writes _).resolve_right shallow
  rw [found] at isValue
  cases isValue

end Application

end Reckoner.Service
