import Reckoner.Proofs.Completion
import Reckoner.Proofs.Service.Posting
import Reckoner.Proofs.Service.Standing
import Reckoner.Proofs.Service.Writing

/-!
# Evaluations without a session

An expression may be evaluated once without a session. The answer is the one that a new session with
nothing but the configured settings would give first, and of the service only the random numbers
that have been drawn are changed.
-/

set_option autoImplicit false

namespace Reckoner

namespace Settings

/-- Nothing is replaced where nothing is given. -/
theorem override_null (settings : Settings) :
    settings.override .null .null .null = .ok settings := by
  have operand := settings.precision.ofInt?_toInt
  have result := settings.resultPrecision.ofInt?_toInt
  simp only [override, given, ofValues, readPrecision, operand, result]
  rfl

end Settings

namespace Registry

variable {registry : Registry}

/-- A session that has just been created is fetched with the settings it was created with. -/
theorem get_of_create (lasting : registry.Lasting) {now : Int} {settings : Settings} {id : String}
    (created : (registry.create now settings).1 = .ok id) :
    ((registry.create now settings).2.get now id).1 = .ok { settings := settings } := by
  have live := live?_create_of_ok lasting.sound created id
  have within : LiveSession.isWithin registry.lifetime now ⟨now, { settings := settings }⟩ = true := by
    simp [LiveSession.isWithin, lasting.lifetime]
  rw [if_pos rfl, Option.filter_some, if_pos within] at live
  rw [get_eq (lasting.sound.create now settings), live]

end Registry

namespace Service

namespace Application

variable {application : Application}

/-- The outcome of an evaluation, with the session that is named in the answer. -/
def answered (session : Json) : Except EvaluationFailure Report → Except Fault Response
  | .error failure => .error (.evaluation failure)
  | .ok report => .ok (.success 200 (.object (("session_id", session) :: report.members)))

theorem answerReport_eq (application : Application) (session : Json)
    (outcome : Except EvaluationFailure Report) :
    application.answerReport session outcome = (answered session outcome, application) := by
  cases outcome with
  | error failure => rfl
  | ok report => rfl

/-- An answer with a report can be written. -/
theorem bind_write_answered {session : Json} (named : session.levels = 0)
    (outcome : Except EvaluationFailure Report) :
    (answered session outcome).bind application.write = answered session outcome := by
  cases outcome with
  | error failure => rfl
  | ok report => exact write_success (Nat.le_trans (levels_report_le named report) (by decide))

variable {settings : Settings} {registry : Registry}

theorem evaluateOnce_eq (loads : application.configuration.defaultSettings = .ok settings)
    (expression : String) :
    let evaluated := Calculator.evaluate { settings := settings } application.random expression
    application.evaluateOnce expression =
      (answered .null evaluated.1, { application with random := evaluated.2.2 }) := by
  unfold evaluateOnce
  rw [loads]
  exact answerReport_eq _ .null _

/-- A session without demands of its own is created where there is room for it. -/
theorem createSession_eq (loads : application.configuration.defaultSettings = .ok settings)
    (opens : application.openRegistry = .ok registry)
    (room : (registry.purge application.now).size < registry.capacity) :
    ∃ id, (registry.create application.now settings).1 = .ok id ∧
      application.createSession ⟨none, none, none⟩ =
        (.ok (.success 201
            (.object [("session_id", .string id), ("settings", settings.toJson)])),
          application.withRegistry (registry.create application.now settings).2) := by
  rcases registry.create_cases application.now settings with ⟨full, -⟩ | ⟨-, created⟩
  · omega
  · refine ⟨_, by rw [created], ?_⟩
    simp only [createSession, loads, wholeOrNull, truthOrNull, settings.override_null, opens,
      created]
    rfl

/-- The first evaluation in a session is by a calculator without variables. -/
theorem evaluateIn_eq {id : String}
    (opens : application.openRegistry = .ok registry)
    (fetched : (registry.get application.now id).1 = .ok { settings := settings })
    (expression : String) :
    let evaluated := Calculator.evaluate { settings := settings } application.random expression
    (application.evaluateIn id expression).1 = answered (.string id) evaluated.1 ∧
      (application.evaluateIn id expression).2.random = evaluated.2.2 := by
  unfold evaluateIn
  simp only [opens, fetched, answerReport_eq, and_self]

/-- After any run, an expression that is evaluated without a session has the outcome that it has as
the first one in a session which is created without demands, and the service is left as it was, but
for the random numbers. The outcome is a report if the settings are workable. -/
theorem one_off_eq_first_of_session (configuration : Configuration) (random : RandomSource)
    (limits : Limits) (steps : List Step) {settings : Settings}
    (loads : configuration.defaultSettings = .ok settings) {request : Request}
    {payload : EvaluatePayload}
    (receives : ((start configuration random limits).run steps).Receives request .evaluate
      EvaluatePayload.ofJson payload)
    (noSession : payload.session? = none) :
    let application := (start configuration random limits).run steps
    ∃ outcome later,
      application.handle request =
        (configuration.told (answered .null outcome), { application with random := later }) ∧
      (settings.Workable → ∃ report, outcome = .ok report) ∧
      ∀ registry, application.openRegistry = .ok registry →
        (registry.purge application.now).size < registry.capacity →
        ∀ opening, application.Receives opening .sessions SessionPayload.ofJson ⟨none, none, none⟩ →
          let created := application.handle opening
          ∃ id, created.1 = .ok (.success 201
              (.object [("session_id", .string id), ("settings", settings.toJson)])) ∧
            ∀ first again,
              created.2.Receives first .evaluate EvaluatePayload.ofJson again →
              again.expression = payload.expression → again.session? = some id →
              (created.2.handle first).1 = configuration.told (answered (.string id) outcome) ∧
                (created.2.handle first).2.random = later := by
  intro application
  obtain ⟨same, -, stands⟩ := lasting_run configuration random limits steps
  have same : application.configuration = configuration := same
  rw [← same] at loads ⊢
  let evaluated :=
    Calculator.evaluate { settings := settings } application.random payload.expression
  refine ⟨evaluated.1, evaluated.2.2, ?_, ?_, ?_⟩
  · have responded : application.respondAt request .evaluate =
        (answered .null evaluated.1, { application with random := evaluated.2.2 }) := by
      rw [respondAt, receives.withPayload, evaluate, noSession]
      exact evaluateOnce_eq loads payload.expression
    rw [handle_of_postsTo receives.posts, responded, bind_write_answered rfl]
  · intro workable
    exact Calculator.exists_report workable application.random payload.expression
  · intro registry opens room opening asked created
    obtain ⟨id, made, answer⟩ := createSession_eq loads opens room
    have responded : application.respondAt opening .sessions =
        application.createSession ⟨none, none, none⟩ := asked.withPayload _
    have isCreated : created = application.createSession ⟨none, none, none⟩ := by
      show application.handle opening = _
      rw [handle_of_postsTo asked.posts, responded, answer]
      simp only [Except.bind, write_created (levels_degree_of_defaults loads), Configuration.told]
    rw [isCreated, answer]
    refine ⟨id, rfl, ?_⟩
    intro first again receives sameExpression inSession
    have fetched := Registry.get_of_create (stands.opened opens) made
    have outcome := @evaluateIn_eq
      (application.withRegistry (registry.create application.now settings).2) settings _ id rfl
      fetched payload.expression
    have responded : respondAt (application.withRegistry (registry.create application.now settings).2)
        first .evaluate =
        evaluateIn (application.withRegistry (registry.create application.now settings).2) id
          payload.expression := by
      rw [respondAt, receives.withPayload, evaluate, inSession, sameExpression]
    rw [handle_of_postsTo receives.posts, responded, outcome.1, bind_write_answered rfl]
    exact ⟨rfl, outcome.2⟩

/-- A configuration of one minute and two sessions with a precision that is no number. -/
def unkempt : Configuration :=
  { brief with
    calculator := [("precision", .string "many"), ("result_precision", .string " 3 "),
      ("session_ttl_minutes", .int 1), ("max_sessions", .int 2)] }

/-- A request for the value of an expression with a random number in it, and in a session if one is
named. -/
def drawRequest (session : String) : Request where
  method := "POST"
  target := "/api/calculator/evaluate"
  body := "\x7b\"expression\": \"1/16+rand()\", \"session_id\": \"" ++ session ++ "\"\x7d"
  contentType := some "application/json"

/-- The session that a successful answer names. -/
def answeredSession? (response : Response) : Option Text.CodePoints :=
  match response.content with
  | some (.object [_, (_, .object ((_, .string id) :: _))]) => some id
  | _ => none

/-- While one of two sessions has expired and has not been dropped, a number is drawn without a
session, and as well by the third one. -/
theorem one_off_eq_first_of_session_of_draw :
    let application := (start unkempt (.cycling [])).run twoSessions
    let created := application.handle ⟨"POST", "/api/calculator/sessions", "", none⟩
    unkempt.defaultSettings = .ok ⟨.unset, .places 3, .bool false⟩ ∧
      application.entries.map (·.id) = [sessionId 1, sessionId 2] ∧
      created.2.entries.map (·.id) = [sessionId 2, sessionId 3] ∧
      ∃ report later,
        application.handle (drawRequest "") =
          (answered .null (.ok report), { application with random := later }) ∧
        (created.2.handle (drawRequest (sessionId 3))).1 =
          answered (.string (sessionId 3)) (.ok report) := by
  intro application created
  have loads : unkempt.defaultSettings = .ok ⟨.unset, .places 3, .bool false⟩ := rfl
  have receives : application.Receives (drawRequest "") .evaluate EvaluatePayload.ofJson
      ⟨"1/16+rand()", some ""⟩ := ⟨⟨rfl, by decide +kernel⟩, by decide +kernel⟩
  obtain ⟨outcome, later, answer, reports, likewise⟩ :=
    one_off_eq_first_of_session unkempt (.cycling []) .usual twoSessions loads receives rfl
  obtain ⟨report, rfl⟩ := reports ⟨trivial, show Decimal.Workable 3 by decide⟩
  refine ⟨loads, by decide +kernel, by decide +kernel, report, later, answer, ?_⟩
  have room : application.openRegistry.toOption.any (fun registry : Registry =>
      ((registry.purge application.now).size : Int) < registry.capacity) = true := by
    decide +kernel
  cases opens : application.openRegistry with
  | error error =>
    rw [opens] at room
    cases room
  | ok registry =>
    rw [opens] at room
    have opening : application.Receives ⟨"POST", "/api/calculator/sessions", "", none⟩ .sessions
        SessionPayload.ofJson ⟨none, none, none⟩ := ⟨⟨rfl, by decide +kernel⟩, by decide +kernel⟩
    obtain ⟨id, isCreated, follows⟩ := likewise registry opens (of_decide_eq_true room) _ opening
    have named : created.1.toOption.bind answeredSession? = some ↑(sessionId 3) := by
      decide +kernel
    rw [show created.1 = _ from isCreated] at named
    obtain rfl : id = sessionId 3 := Text.CodePoints.ofString_inj.1 (Option.some.inj named)
    have again : created.2.Receives (drawRequest (sessionId 3)) .evaluate EvaluatePayload.ofJson
        ⟨"1/16+rand()", some (sessionId 3)⟩ := ⟨⟨rfl, by decide +kernel⟩, by decide +kernel⟩
    exact (follows _ _ again rfl (by decide +kernel)).1

end Application

end Service

end Reckoner
