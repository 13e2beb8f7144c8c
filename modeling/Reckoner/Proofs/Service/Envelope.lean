import Reckoner.Proofs.Json.Report
import Reckoner.Proofs.Service.Refusal
import Reckoner.Proofs.Service.Supplied

/-!
# The envelope

An answer in the envelope is JSON that says whether the request succeeded, with the data if it did
and with a code, a message and details if it did not. As it is supplied, the service answers so
whatever it is asked, with four exceptions: a place that does not take the method and a path with
slashes to merge are answered by a bare status, a body with more levels than can be read meets a
fault, and so does one whose refusal has more levels than can be written.
-/

set_option autoImplicit false

namespace Reckoner.Service

namespace Response

/-- A response that is JSON in the envelope. -/
inductive IsEnvelope : Response → Prop where
  | success {status : Int} {data : Json.Foreign} (succeeds : status = 200 ∨ status = 201) :
      IsEnvelope ⟨status, .json, some (.object [("success", .bool true), ("data", data)])⟩
  | failure {status : Int} {code message : String} {details : Json.Foreign} (fails : 400 ≤ status) :
      IsEnvelope ⟨status, .json, some (.object [("success", .bool false), ("error", .object
        [("code", .string code), ("message", .string message), ("details", details)])])⟩

/-- A response whose content, if it has any, has only finite numbers in it. -/
def IsFinite (response : Response) : Prop :=
  ∀ content ∈ response.content, content.IsFinite

theorem not_isEnvelope_bare (status : Int) : ¬ (bare status).IsEnvelope :=
  nofun

theorem isFinite_success {status : Int} {data : Json} (finite : data.IsFinite) :
    (success status data).IsFinite := by
  intro content isContent
  cases isContent
  refine .object ?_
  simp only [List.forall_mem_cons]
  exact ⟨.bool true, finite.map _, nofun⟩

theorem isFinite_failure {failure : Failure} (finite : failure.details.IsFinite) :
    (Response.failure failure).IsFinite := by
  have details : (Failure.detailsOrEmpty failure.details).IsFinite := by
    unfold Failure.detailsOrEmpty
    split
    · exact .object nofun
    · exact finite
  have shown : failure.toJson.IsFinite := by
    refine .object ?_
    simp only [List.forall_mem_cons]
    exact ⟨.string _, .string _, details, nofun⟩
  intro content isContent
  cases isContent
  refine .object ?_
  simp only [List.forall_mem_cons]
  exact ⟨.bool false, shown, nofun⟩

/-- The answers that show a number which is not finite: the value of an expression, a variable, or
a part of the request that is complained about. -/
inductive ShowsInfinite : Response → Prop where
  | report (session : Json) {report : Report} (infinite : ¬ report.ShowsFinite) :
      ShowsInfinite (.success 200 (.object (("session_id", session) :: report.members)))
  | variables (id : String) {table : Variables} {entry : String × Float}
      (there : entry ∈ table.entries) (infinite : entry.2.isFinite = false) :
      ShowsInfinite (.success 200 (.object
        [("session_id", .string id), ("variables", Application.variableMembers table)]))
  | complaints {complaints : List Complaint} {complaint : Complaint} (there : complaint ∈ complaints)
      (infinite : ¬ complaint.input.IsFinite) :
      ShowsInfinite (.failure (invalidPayload complaints))

end Response

/-- An outcome that is an answer in the envelope, with finite numbers unless it is one of those that
show another one. -/
def Enveloped (outcome : Except Fault Response) : Prop :=
  ∃ response, outcome = .ok response ∧ response.IsEnvelope ∧
    (response.IsFinite ∨ response.ShowsInfinite)

/-- Such an outcome that can be written within any limits. -/
def BrieflyEnveloped (outcome : Except Fault Response) : Prop :=
  ∃ response, outcome = .ok response ∧ response.levels ≤ 5 ∧ response.IsEnvelope ∧
    (response.IsFinite ∨ response.ShowsInfinite)

theorem BrieflyEnveloped.write {outcome : Except Fault Response} (brief : BrieflyEnveloped outcome)
    (application : Application) : Enveloped (outcome.bind application.write) := by
  obtain ⟨response, rfl, few, isEnvelope⟩ := brief
  exact ⟨response, Application.write_of_levels_le few, isEnvelope⟩

theorem brieflyEnveloped_success {status : Int} {data : Json} (succeeds : status = 200 ∨ status = 201)
    (few : data.levels ≤ 4)
    (shows : data.IsFinite ∨ (Response.success status data).ShowsInfinite) :
    BrieflyEnveloped (.ok (.success status data)) :=
  ⟨_, rfl, (Response.levels_success_le_iff (by decide)).2 few, .success succeeds,
    shows.imp_left Response.isFinite_success⟩

/-- A failure without details is in the envelope. -/
theorem brieflyEnveloped_failure {failure : Failure} (fails : 400 ≤ failure.status)
    (bare : failure.details = .null) : BrieflyEnveloped (.ok (.failure failure)) :=
  ⟨_, rfl, (Response.levels_failure_le_iff (by decide)).2 (bare ▸ Nat.zero_le 3), .failure fails,
    .inl (Response.isFinite_failure (bare ▸ .null))⟩

theorem brieflyEnveloped_registryFailure (error : RegistryError) :
    BrieflyEnveloped (.ok (.failure (registryFailure error))) := by
  cases error with
  | notFound => exact brieflyEnveloped_failure (by decide) rfl
  | full => exact brieflyEnveloped_failure (by decide) rfl

theorem brieflyEnveloped_nothingThere : BrieflyEnveloped (.ok (.failure Application.nothingThere)) :=
  brieflyEnveloped_failure (by decide) rfl

theorem enveloped_invalidPayload (complaints : List Complaint) :
    Enveloped (.ok (.failure (invalidPayload complaints))) := by
  refine ⟨_, rfl, .failure (Int.le_refl 400), ?_⟩
  by_cases finite : ∀ complaint ∈ complaints, complaint.input.IsFinite
  · refine .inl (Response.isFinite_failure (.array fun detail member => ?_))
    obtain ⟨complaint, there, rfl⟩ := List.mem_map.1 member
    have location : (Json.array (complaint.location.map Json.string)).IsFinite :=
      .array (List.forall_mem_map.2 fun name _ => .string name)
    refine .object ?_
    simp only [List.forall_mem_cons]
    exact ⟨.string _, location, .string _, finite complaint there, nofun⟩
  · push Not at finite
    obtain ⟨complaint, there, infinite⟩ := finite
    exact .inr (.complaints there infinite)

namespace Application

variable {application : Application}

/-- Settings that replace others by what a payload has are on or off as to degrees. -/
theorem isFinite_degree {payload : SessionPayload} {after : Settings}
    (overridden : (⟨.unset, .unset, .bool false⟩ : Settings).override
      (wholeOrNull payload.precision) (wholeOrNull payload.resultPrecision)
      (truthOrNull payload.degree) = .ok after) : after.degree.IsFinite := by
  obtain ⟨operand, -, overridden⟩ := exists_of_bind overridden
  obtain ⟨result, -, overridden⟩ := exists_of_bind overridden
  obtain rfl := Except.ok.inj overridden
  cases payload.degree with
  | none => exact .bool false
  | some degree => exact .bool degree

theorem isFinite_toJson {settings : Settings} (finite : settings.degree.IsFinite) :
    settings.toJson.IsFinite := by
  refine .object ?_
  simp only [List.forall_mem_cons]
  exact ⟨.int _, .int _, finite, nofun⟩

theorem brieflyEnveloped_createSession (ready : application.IsReady) (payload : SessionPayload) :
    BrieflyEnveloped (application.createSession payload).1 := by
  obtain ⟨registry, opens, -⟩ := ready.exists_openRegistry
  unfold createSession
  rw [ready.defaultSettings]
  simp only
  split
  · exact brieflyEnveloped_failure (Int.le_refl 400) rfl
  · rename_i settings overridden
    rw [opens]
    simp only
    cases (registry.create application.now settings).1 with
    | error error => exact brieflyEnveloped_registryFailure error
    | ok id =>
      have few := levels_created_le (levels_degree_of_override rfl overridden) id
      refine brieflyEnveloped_success (.inr rfl) (Nat.le_succ_of_le few) (.inl (.object ?_))
      simp only [List.forall_mem_cons]
      exact ⟨.string id, isFinite_toJson (isFinite_degree overridden), nofun⟩

theorem brieflyEnveloped_deleteSession (ready : application.IsReady) (id : String) :
    BrieflyEnveloped (application.deleteSession id).1 := by
  obtain ⟨registry, opens, -⟩ := ready.exists_openRegistry
  unfold deleteSession
  rw [opens]
  simp only
  cases (registry.delete id).1 with
  | error error => exact brieflyEnveloped_registryFailure error
  | ok done =>
    refine brieflyEnveloped_success (.inl rfl) (Nat.le_add_left 2 2) (.inl (.object ?_))
    simp only [List.forall_mem_cons]
    exact ⟨.string id, .bool true, nofun⟩

theorem isFinite_variableMembers {table : Variables}
    (finite : ∀ entry ∈ table.entries, entry.2.isFinite = true) :
    (variableMembers table).IsFinite := by
  refine .object fun member there => ?_
  obtain ⟨entry, isEntry, rfl⟩ := List.mem_map.1 there
  exact .float (finite entry isEntry)

theorem levels_listed_le (id : String) (table : Variables) :
    (Json.object [("session_id", .string id), ("variables", variableMembers table)]).levels ≤ 3 := by
  have shown : (variableMembers table).levels ≤ 2 := by
    refine (Json.levels_object_le_iff (Nat.le_refl 1)).2 fun member there => ?_
    obtain ⟨entry, -, rfl⟩ := List.mem_map.1 there
    exact Nat.zero_le 1
  refine (Json.levels_object_le_iff (by decide)).2 ?_
  simp only [List.forall_mem_cons]
  exact ⟨Nat.zero_le 2, shown, nofun⟩

theorem brieflyEnveloped_listVariables (ready : application.IsReady) (id : String) :
    BrieflyEnveloped (application.listVariables id).1 := by
  obtain ⟨registry, opens, -⟩ := ready.exists_openRegistry
  unfold listVariables
  rw [opens]
  simp only
  cases (registry.get application.now id).1 with
  | error error => exact brieflyEnveloped_registryFailure error
  | ok calculator =>
    refine brieflyEnveloped_success (.inl rfl) (Nat.le_succ_of_le (levels_listed_le id _)) ?_
    by_cases finite : ∀ entry ∈ calculator.table.entries, entry.2.isFinite = true
    · refine .inl (.object ?_)
      simp only [List.forall_mem_cons]
      exact ⟨.string id, isFinite_variableMembers finite, nofun⟩
    · push Not at finite
      obtain ⟨entry, there, infinite⟩ := finite
      exact .inr (.variables id there (Bool.eq_false_iff.2 infinite))

/-- An evaluation that ends with a report is answered by it. -/
theorem brieflyEnveloped_answerReport {session : Json} (named : session.IsFinite)
    (single : session.levels = 0) {outcome : Except EvaluationFailure Report}
    (ends : ∃ report, outcome = .ok report) :
    BrieflyEnveloped (application.answerReport session outcome).1 := by
  obtain ⟨report, rfl⟩ := ends
  refine brieflyEnveloped_success (.inl rfl) (Nat.le_succ_of_le (levels_report_le single report)) ?_
  by_cases finite : report.ShowsFinite
  · refine .inl (.object ?_)
    rw [List.forall_mem_cons]
    exact ⟨named, report.showsFinite_iff.1 finite⟩
  · exact .inr (.report session finite)

theorem brieflyEnveloped_evaluateOnce (ready : application.IsReady) (expression : String) :
    BrieflyEnveloped (application.evaluateOnce expression).1 := by
  unfold evaluateOnce
  rw [ready.defaultSettings]
  have workable : (⟨.unset, .unset, .bool false⟩ : Settings).Workable := ⟨trivial, trivial⟩
  exact brieflyEnveloped_answerReport .null rfl
    (@Calculator.exists_report { settings := ⟨.unset, .unset, .bool false⟩ } workable _ expression)

theorem brieflyEnveloped_evaluateIn (ready : application.IsReady) (id expression : String) :
    BrieflyEnveloped (application.evaluateIn id expression).1 := by
  obtain ⟨registry, opens, workable⟩ := ready.exists_openRegistry
  unfold evaluateIn
  rw [opens]
  simp only
  cases fetched : (registry.get application.now id).1 with
  | error error => exact brieflyEnveloped_registryFailure error
  | ok calculator =>
    have kept := Registry.workable_isKept.fetched registry workable application.now id calculator
      fetched
    exact brieflyEnveloped_answerReport (.string id) rfl
      (Calculator.exists_report kept _ expression)

theorem brieflyEnveloped_evaluate (ready : application.IsReady) (payload : EvaluatePayload) :
    BrieflyEnveloped (application.evaluate payload).1 := by
  unfold evaluate
  split
  · exact brieflyEnveloped_evaluateOnce ready _
  · exact brieflyEnveloped_evaluateIn ready _ _

theorem brieflyEnveloped_reorder (ready : application.IsReady) (payload : PostfixPayload) :
    BrieflyEnveloped (application.reorder payload).1 := by
  unfold reorder
  rw [ready.defaultSettings]
  have few := levels_reordered_le payload.expression
    ((Calculator.convert payload.expression).1.map Token.text)
    ((Calculator.convert payload.expression).2.map Token.text)
  refine brieflyEnveloped_success (.inl rfl) (Nat.le_trans few (by decide)) (.inl (.object ?_))
  simp only [List.forall_mem_cons]
  exact ⟨.string _, Json.isFinite_strings _, Json.isFinite_strings _, nofun⟩

theorem brieflyEnveloped_showHome (ready : application.IsReady) :
    BrieflyEnveloped application.showHome.1 := by
  obtain ⟨testing, same⟩ := ready.configured
  unfold showHome
  rw [same]
  refine brieflyEnveloped_success (.inl rfl) (Nat.le_refl 4) (.inl (.object ?_))
  simp only [List.forall_mem_cons]
  refine ⟨.string _, .array ?_, nofun⟩
  simp only [List.forall_mem_singleton]
  refine .object ?_
  simp only [List.forall_mem_cons]
  exact ⟨.string _, .string _, .string _, .string _, nofun⟩

/-! ## Requests -/

variable {request : Request} {schema : Schema}

/-- A request at a place with a schema whose body has more levels than can be read, or whose refusal
has more levels than can be written. -/
inductive Exceeds (application : Application) (request : Request) (schema : Schema) :
    Excess → Prop where
  | read {container : Json.Container} (json : request.isJson = true)
      (fits : request.body.length ≤ application.configuration.maxContentLength)
      (deep : readBody application.limits.read request.body = .error (.tooDeep container)) :
      Exceeds application request schema (.read container)
  | written {value : Json.Foreign} (understood : application.payload request = .ok value)
      (refused : schema.Refuses value)
      (many : application.limits.written <
        (Response.failure (invalidPayload (schema.complaints value))).levels) :
      Exceeds application request schema .written

/-- A request has a payload, unless its body is too long or has too many levels to be read. -/
theorem payload_trichotomy (application : Application) (request : Request) (schema : Schema) :
    (∃ value, application.payload request = .ok value ∧
        value.levels ≤ Body.openings request.body + 1) ∨
      application.payload request = .error (.failure (.ofKind .tooLarge "Payload too large")) ∨
      ∃ container, application.Exceeds request schema (.read container) := by
  have empty : (Json.object [] : Json.Foreign).levels ≤ Body.openings request.body + 1 :=
    Nat.le_add_left 1 _
  cases json : request.isJson with
  | false => exact .inl ⟨.object [], by rw [payload, json]; rfl, empty⟩
  | true =>
    by_cases fits : request.body.length ≤ application.configuration.maxContentLength
    · rcases payload_cases json fits with ⟨value, writes, -, -, understood⟩ | ⟨-, -, understood⟩ |
        ⟨container, deep, -⟩
      · exact .inl ⟨value, understood, writes.levels_le⟩
      · exact .inl ⟨.object [], understood, empty⟩
      · exact .inr (.inr ⟨container, .read json fits deep⟩)
    · have tooLong := decide_eq_true (Int.not_le.1 fits)
      unfold payload
      rw [json, tooLong]
      cases body : request.body with
      | nil => exact .inl ⟨.object [], rfl, Nat.le_add_left 1 _⟩
      | cons byte bytes => exact .inr (.inl rfl)

/-- Only a body that opens nearly as many arrays, objects and constants as there are levels exceeds
them. -/
theorem Exceeds.lt_openings {excess : Excess} (exceeds : application.Exceeds request schema excess) :
    min application.limits.read application.limits.written < Body.openings request.body + 5 := by
  cases exceeds with
  | read json fits deep =>
    have opens : application.limits.read < Body.openings request.body :=
      Nat.not_le.1 fun few => not_tooDeep_of_openings few ⟨_, deep⟩
    omega
  | @written value understood refused many =>
    have few : value.levels ≤ Body.openings request.body + 1 := by
      rcases payload_trichotomy application request schema with ⟨other, isOther, few⟩ | tooLong |
        ⟨container, ⟨json, fits, deep⟩⟩
      · rw [understood] at isOther
        obtain rfl := Except.ok.inj isOther
        exact few
      · rw [understood] at tooLong
        cases tooLong
      · rw [payload_eq json fits, deep] at understood
        cases understood
    have refusal := levels_refusal_le schema (Nat.le_add_left 1 _) few
    omega

/-- A place that refuses what its schema refuses answers in the envelope, within the limits. -/
theorem enveloped_withPayload {Payload : Type}
    {read : Json.Foreign → Except (List Complaint) Payload} (describes : schema.Describes read)
    (calm : ∀ excess, ¬ application.Exceeds request schema excess)
    {handle : Application → Payload → Handled}
    (brief : ∀ payload, BrieflyEnveloped (handle application payload).1) :
    Enveloped ((application.withPayload request read handle).1.bind application.write) := by
  rcases payload_trichotomy application request schema with ⟨value, understood, -⟩ | tooLong |
    ⟨container, tooDeep⟩
  · by_cases refused : schema.Refuses value
    · have few := Nat.not_lt.1 fun many => calm .written (.written understood refused many)
      rw [withPayload_of_refused describes understood refused]
      simp only [Except.bind, write, if_pos few]
      exact enveloped_invalidPayload _
    · obtain ⟨payload, taken⟩ := describes.taken value refused
      have receives : application.readPayload request read = .ok payload := by
        unfold readPayload
        rw [understood]
        simp only [bind, Except.bind, taken]
        rfl
      unfold withPayload
      rw [receives]
      exact (brief payload).write application
  · unfold withPayload readPayload
    rw [tooLong]
    have isFailure : BrieflyEnveloped (.ok (.failure (.ofKind .tooLarge "Payload too large"))) :=
      brieflyEnveloped_failure (by decide) rfl
    exact isFailure.write application
  · exact absurd tooDeep (calm _)

theorem enveloped_respondAt (ready : application.IsReady) (route : Route)
    (calm : ∀ schema, route.schema? = some schema →
      ∀ excess, ¬ application.Exceeds request schema excess) :
    Enveloped ((application.respondAt request route).1.bind application.write) := by
  cases route with
  | home => exact (brieflyEnveloped_showHome ready).write application
  | sessions =>
    exact enveloped_withPayload SessionPayload.describes (calm _ rfl)
      (brieflyEnveloped_createSession ready)
  | session id => exact (brieflyEnveloped_deleteSession ready id).write application
  | tableOf id => exact (brieflyEnveloped_listVariables ready id).write application
  | evaluate =>
    exact enveloped_withPayload EvaluatePayload.describes (calm _ rfl)
      (brieflyEnveloped_evaluate ready)
  | postfixOrder =>
    exact enveloped_withPayload PostfixPayload.describes (calm _ rfl)
      (brieflyEnveloped_reorder ready)
  | asset path => exact brieflyEnveloped_nothingThere.write application

/-- A place meets a fault with a request that exceeds the limits. -/
theorem respondAt_of_exceeds {route : Route} (takes : route.schema? = some schema) {excess : Excess}
    (exceeds : application.Exceeds request schema excess) :
    (application.respondAt request route).1.bind application.write = .error (.nesting excess) := by
  cases exceeds with
  | read json fits deep =>
    have faulty := payload_eq json fits
    rw [deep] at faulty
    rw [respondAt_of_fault takes faulty]
    rfl
  | written understood refused many =>
    rw [respondAt_of_refused takes understood refused]
    simp only [Except.bind, write, if_neg (Nat.not_le.2 many)]

/-- The methods of requests whose answers have a body. -/
def methods : List String := ["GET", "POST", "PUT", "PATCH", "DELETE"]

/-- With these methods a client is told what the service responds. -/
theorem handle_of_mem_methods (isMethod : Text.upperCase request.method ∈ methods) :
    (application.handle request).1 =
      application.configuration.told
        ((application.respond request (Text.upperCase request.method)).1.bind
          application.write) := by
  have hasBody : Text.upperCase request.method ≠ "HEAD" := by
    rintro isHead
    rw [isHead] at isMethod
    exact absurd isMethod (by decide)
  unfold handle
  simp only
  rcases application.respond request (Text.upperCase request.method) with ⟨outcome, after⟩
  cases outcome.bind application.write with
  | error fault =>
    simp only [Configuration.told]
    split
    · rfl
    · rfl
  | ok response => simp only [if_neg hasBody]; rfl

theorem told_of_enveloped (configuration : Configuration) {outcome : Except Fault Response}
    (enveloped : Enveloped outcome) : Enveloped (configuration.told outcome) := by
  obtain ⟨response, rfl, isEnvelope⟩ := enveloped
  exact ⟨response, rfl, isEnvelope⟩

theorem respond_of_wrongMethod {method : String}
    (leads : Destination.ofTarget method request.target = .wrongMethod) :
    application.respond request method = application.answer (.bare 405) := by
  rw [respond, leads]

theorem respond_of_moved {method : String}
    (leads : Destination.ofTarget method request.target = .moved) :
    application.respond request method = application.answer (.bare 308) := by
  rw [respond, leads]

theorem respond_of_nowhere {method : String}
    (leads : Destination.ofTarget method request.target = .nowhere) :
    application.respond request method = application.refuse nothingThere := by
  rw [respond, leads]

theorem respond_of_place {route : Route} (isMethod : Text.upperCase request.method ∈ methods)
    (leads : Destination.ofTarget (Text.upperCase request.method) request.target = .place route) :
    application.respond request (Text.upperCase request.method) =
      application.respondAt request route := by
  have asksMore : Text.upperCase request.method ≠ "OPTIONS" := by
    rintro isOptions
    rw [isOptions] at isMethod
    exact absurd isMethod (by decide)
  unfold respond
  rw [leads]
  exact if_neg asksMore

/-- A request that leads to a place with a schema and exceeds the limits there. -/
def MeetsFault (application : Application) (request : Request) (excess : Excess) : Prop :=
  ∃ route schema,
    Destination.ofTarget (Text.upperCase request.method) request.target = .place route ∧
    route.schema? = some schema ∧ application.Exceeds request schema excess

/-- Under the supplied configuration and within any limits, after any run, every request is answered
in the envelope, unless the place it leads to does not take its method, its path has slashes to merge,
or it exceeds the limits, as only a body does that opens nearly as many arrays, objects and constants
as there are levels. -/
theorem enveloped_of_supplied {profileName : Json} {configuration : Configuration}
    (made : Configuration.ofJson Configuration.supplied profileName = .ok configuration)
    (random : RandomSource) (limits : Limits) (steps : List Step) {request : Request}
    (isMethod : Text.upperCase request.method ∈ methods) :
    let application := (start configuration random limits).run steps
    let destination := Destination.ofTarget (Text.upperCase request.method) request.target
    let outcome := (application.handle request).1
    (destination = .wrongMethod → outcome = .ok (.bare 405)) ∧
      (destination = .moved → outcome = .ok (.bare 308)) ∧
      (∀ excess, application.MeetsFault request excess →
        outcome = configuration.told (.error (.nesting excess)) ∧
          min limits.read limits.written < Body.openings request.body + 5) ∧
      (destination ≠ .wrongMethod → destination ≠ .moved →
        (∀ excess, ¬ application.MeetsFault request excess) → Enveloped outcome) := by
  intro application destination outcome
  obtain ⟨testing, rfl⟩ := Configuration.exists_loaded made
  have started := isReady_start testing random limits
  have ready : application.IsReady := started.run steps
  have continues := started.stands.run Registry.workable_isKept steps
  have same : application.configuration = Configuration.loaded testing := continues.configuration
  have bounded : application.limits = limits := continues.limits
  have told : outcome = (Configuration.loaded testing).told
      ((application.respond request (Text.upperCase request.method)).1.bind application.write) := by
    rw [← same]
    exact handle_of_mem_methods isMethod
  rw [told]
  refine ⟨fun leads => ?_, fun leads => ?_, ?_, fun takes stays calm => ?_⟩
  · rw [respond_of_wrongMethod leads]
    exact congrArg _ (write_bare 405)
  · rw [respond_of_moved leads]
    exact congrArg _ (write_bare 308)
  · rintro excess ⟨route, schema, leads, isSchema, exceeds⟩
    rw [respond_of_place isMethod leads, respondAt_of_exceeds isSchema exceeds, ← bounded]
    exact ⟨rfl, exceeds.lt_openings⟩
  · apply told_of_enveloped
    cases leads : destination with
    | wrongMethod => exact absurd leads takes
    | moved => exact absurd leads stays
    | nowhere =>
      rw [respond_of_nowhere leads]
      exact brieflyEnveloped_nothingThere.write application
    | place route =>
      rw [respond_of_place isMethod leads]
      refine enveloped_respondAt ready route fun schema isSchema excess exceeds => ?_
      exact calm excess ⟨route, schema, leads, isSchema, exceeds⟩

/-- A request for the variables of a session that does not exist. -/
def missingRequest : Request where
  method := "get"
  target := "/api/calculator/sessions/nobody/variables"

theorem enveloped_of_supplied_of_missing :
    Configuration.ofJson Configuration.supplied (.string "TestingConfig") =
        .ok (Configuration.loaded true) ∧
      Text.upperCase missingRequest.method ∈ methods ∧
      Enveloped (((start (Configuration.loaded true) (.cycling [])).run twoSessions).handle
        missingRequest).1 := by
  have named : Profile.ofJson (.string "TestingConfig") = .ok (some .testing) := by decide
  have made : Configuration.ofJson Configuration.supplied (.string "TestingConfig") =
      .ok (Configuration.loaded true) :=
    Configuration.ofJson_supplied named
  have isMethod : Text.upperCase missingRequest.method ∈ methods := by decide +kernel
  have leads : Destination.ofTarget (Text.upperCase missingRequest.method) missingRequest.target =
      .place (.tableOf "nobody") := by
    decide +kernel
  refine ⟨made, isMethod, ?_⟩
  refine (enveloped_of_supplied made (.cycling []) .usual twoSessions isMethod).2.2.2 ?_ ?_ ?_
  · rw [leads]
    exact nofun
  · rw [leads]
    exact nofun
  · rintro excess ⟨route, schema, leadsTo, isSchema, -⟩
    rw [leads] at leadsTo
    obtain rfl := Destination.place.inj leadsTo
    cases isSchema

/-- A request for a place with a method that it does not take. -/
def putRequest : Request where
  method := "PUT"
  target := "/api/calculator/evaluate"

theorem wrong_method_bare :
    Configuration.ofJson Configuration.supplied .null = .ok (Configuration.loaded false) ∧
      Text.upperCase putRequest.method ∈ methods ∧
      ((start (Configuration.loaded false) (.cycling [])).handle putRequest).1 = .ok (.bare 405) ∧
      ¬ (Response.bare 405).IsEnvelope := by
  have isMethod : Text.upperCase putRequest.method = "PUT" := by decide +kernel
  have isAmong : Text.upperCase putRequest.method ∈ methods := by
    rw [isMethod]
    decide
  have leads : Destination.ofTarget "PUT" putRequest.target = .wrongMethod := by decide +kernel
  refine ⟨@Configuration.ofJson_supplied .null none rfl, isAmong, ?_,
    Response.not_isEnvelope_bare 405⟩
  rw [handle_of_mem_methods isAmong, isMethod, respond_of_wrongMethod leads]
  exact congrArg _ (write_bare 405)

end Application

end Reckoner.Service
