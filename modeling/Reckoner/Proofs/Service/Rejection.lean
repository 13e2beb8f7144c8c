import Reckoner.Proofs.Registry.Live
import Reckoner.Service.Application

/-!
# Rejected requests

A request that is rejected is one with a status for a payload that does not fit, for a session that
is not there, for a method that is not taken, for a place that does not exist or for a body that is
too long. It may have made the registry drop expired sessions before it was found out that the
request cannot be granted, and may have used up an identifier; no live session notices it.
-/

set_option autoImplicit false

namespace Reckoner

namespace Registry

variable {registry : Registry}

/-- A registry from which at most sessions that have expired by a moment have been dropped, and
which is otherwise the same by what its sessions show. -/
structure Kept (now : Int) (registry after : Registry) : Prop where
  live : ∀ id, after.live? now id = registry.live? now id
  left : after.entries.Sublist registry.entries
  dropped : ∀ entry ∈ registry.entries, entry ∉ after.entries →
    registry.lifetime < now - entry.lastAccess

theorem kept_self (now : Int) (registry : Registry) : Kept now registry registry where
  live := fun _ => rfl
  left := List.Sublist.refl _
  dropped := fun _ there gone => absurd there gone

theorem kept_purge (sound : registry.Sound) (now : Int) :
    Kept now registry (registry.purge now) where
  live := live?_purge sound now
  left := List.filter_sublist
  dropped := by
    intro entry there gone
    refine Int.not_le.1 fun inTime => gone (List.mem_filter.2 ⟨there, ?_⟩)
    simpa [isExpired] using inTime

theorem kept_of_create_error (sound : registry.Sound) {now : Int} {settings : Settings}
    {error : RegistryError} (refused : (registry.create now settings).1 = .error error) :
    Kept now registry (registry.create now settings).2 := by
  have purged := kept_purge sound now
  have live := live?_create_of_error sound refused
  rcases registry.create_cases now settings with ⟨-, isRefused⟩ | ⟨-, isCreated⟩
  · rw [isRefused] at live ⊢
    exact ⟨live, purged.left, purged.dropped⟩
  · rw [isCreated] at refused
    cases refused

theorem kept_of_get_error (sound : registry.Sound) {now : Int} {id : String} {error : RegistryError}
    (refused : (registry.get now id).1 = .error error) :
    Kept now registry (registry.get now id).2 := by
  rw [get_eq sound] at refused ⊢
  cases live : registry.live? now id with
  | none => exact kept_purge sound now
  | some session =>
    rw [live] at refused
    cases refused

theorem kept_of_delete_error {id : String} {error : RegistryError}
    (refused : (registry.delete id).1 = .error error) (now : Int) :
    Kept now registry (registry.delete id).2 := by
  unfold delete at refused ⊢
  split at refused
  · cases refused
  · rename_i absent
    rw [if_neg absent]
    exact kept_self now registry

end Registry

namespace Service

namespace Application

variable {application : Application}

/-- The session with an identifier, if it is live; there is none before the registry is made. -/
def live? (application : Application) (id : String) : Option LiveSession :=
  application.registry.bind (·.live? application.now id)

/-- The sessions that are kept, expired ones among them. -/
def entries (application : Application) : List SessionEntry :=
  (application.registry.map Registry.entries).getD []

/-- The lifetime of a session has passed since its last access. -/
def IsExpired (application : Application) (entry : SessionEntry) : Prop :=
  ∃ registry, application.registry = some registry ∧
    registry.lifetime < application.now - entry.lastAccess

def Sound (application : Application) : Prop :=
  ∀ registry, application.registry = some registry → registry.Sound

/-- The service after something that took no time, in which every live session is as it was, none
has been added, and only expired ones have been dropped. -/
structure Keeps (application after : Application) : Prop where
  now : after.now = application.now
  live : ∀ id, after.live? id = application.live? id
  left : after.entries.Sublist application.entries
  dropped : ∀ entry ∈ application.entries, entry ∉ after.entries → application.IsExpired entry

/-- The statuses of the requests that are rejected. -/
def rejections : List Int := [400, 404, 405, 413]

def Rejects : Except Fault Response → Prop
  | .ok response => response.status ∈ rejections
  | .error _ => False

/-- The outcome of a request that leaves the service sound and, if the request is rejected, keeps
the sessions. -/
structure Respects (application : Application) (handled : Handled) : Prop where
  sound : handled.2.Sound
  keeps : Rejects handled.1 → application.Keeps handled.2

theorem keeps_self (application : Application) : application.Keeps application where
  now := rfl
  live := fun _ => rfl
  left := List.Sublist.refl _
  dropped := fun _ there gone => absurd there gone

/-! ## Opening the registry -/

theorem exists_of_bind {Error Value Result : Type} {first : Except Error Value}
    {next : Value → Except Error Result} {result : Result}
    (done : (first >>= next) = .ok result) :
    ∃ value, first = .ok value ∧ next value = .ok result := by
  cases first with
  | error error => cases done
  | ok value => exact ⟨value, rfl, done⟩

theorem emptyRegistry_eq {configuration : Configuration} {registry : Registry}
    (made : configuration.emptyRegistry = .ok registry) :
    ∃ lifetime capacity, registry = { lifetime := lifetime, capacity := capacity } := by
  obtain ⟨minutes, -, made⟩ := exists_of_bind made
  obtain ⟨lifetime, -, made⟩ := exists_of_bind made
  obtain ⟨capacity, -, made⟩ := exists_of_bind made
  exact ⟨lifetime, capacity, (Except.ok.inj made).symm⟩

/-- A registry that is needed is the one that is there, or a new one without sessions. -/
theorem openRegistry_cases {registry : Registry}
    (opened : application.openRegistry = .ok registry) :
    application.registry = some registry ∨
      application.registry = none ∧
        ∃ lifetime capacity, registry = { lifetime := lifetime, capacity := capacity } := by
  unfold openRegistry at opened
  cases there : application.registry with
  | some found =>
    rw [there] at opened
    exact .inl (congrArg some (Except.ok.inj opened))
  | none =>
    rw [there] at opened
    exact .inr ⟨rfl, emptyRegistry_eq opened⟩

theorem Sound.openRegistry (sound : application.Sound) {registry : Registry}
    (opened : application.openRegistry = .ok registry) : registry.Sound := by
  rcases openRegistry_cases opened with there | ⟨-, lifetime, capacity, rfl⟩
  · exact sound registry there
  · exact Registry.sound_empty lifetime capacity 0

theorem keeps_withRegistry {registry after : Registry}
    (opened : application.openRegistry = .ok registry)
    (kept : Registry.Kept application.now registry after) :
    application.Keeps (application.withRegistry after) := by
  rcases openRegistry_cases opened with there | ⟨absent, lifetime, capacity, rfl⟩
  · refine ⟨rfl, ?_, ?_, ?_⟩
    · intro id
      simpa [live?, withRegistry, there] using kept.live id
    · simpa [entries, withRegistry, there] using kept.left
    · intro entry isEntry gone
      simp only [entries, withRegistry, there, Option.map_some, Option.getD_some] at isEntry gone
      exact ⟨registry, there, kept.dropped entry isEntry gone⟩
  · refine ⟨rfl, ?_, ?_, ?_⟩
    · intro id
      have none : after.live? application.now id = none :=
        (kept.live id).trans (Registry.live?_of_no_entry rfl application.now)
      simpa [live?, withRegistry, absent] using none
    · simpa [entries, withRegistry, absent] using kept.left
    · intro entry isEntry
      simp [entries, absent] at isEntry

/-! ## What a handler does -/

theorem respects_self (sound : application.Sound) (outcome : Except Fault Response) :
    application.Respects (outcome, application) :=
  ⟨sound, fun _ => application.keeps_self⟩

theorem sound_withRegistry {registry : Registry} (sound : registry.Sound) :
    (application.withRegistry registry).Sound := by
  intro found isFound
  obtain rfl := Option.some.inj isFound
  exact sound

theorem respects_withRegistry {registry after : Registry} {outcome : Except Fault Response}
    (opened : application.openRegistry = .ok registry) (sound : after.Sound)
    (kept : Rejects outcome → Registry.Kept application.now registry after) :
    application.Respects (outcome, application.withRegistry after) :=
  ⟨sound_withRegistry sound, fun rejects => keeps_withRegistry opened (kept rejects)⟩

theorem not_rejects_success {status : Int} (isSuccess : status = 200 ∨ status = 201) (data : Json) :
    ¬ Rejects (.ok (.success status data)) := by
  rcases isSuccess with rfl | rfl
  · show ¬ (200 : Int) ∈ rejections
    decide
  · show ¬ (201 : Int) ∈ rejections
    decide

theorem respects_createSession (sound : application.Sound) (payload : SessionPayload) :
    application.Respects (application.createSession payload) := by
  unfold createSession
  split
  · exact respects_self sound _
  · split
    · exact respects_self sound _
    · rename_i settings _
      split
      · exact respects_self sound _
      · rename_i registry opened
        have isSound := sound.openRegistry opened
        simp only
        cases outcome : (registry.create application.now settings).1 with
        | error error =>
          exact respects_withRegistry opened (isSound.create _ _)
            fun _ => Registry.kept_of_create_error isSound outcome
        | ok id =>
          exact respects_withRegistry opened (isSound.create _ _)
            fun rejects => absurd rejects (not_rejects_success (.inr rfl) _)

theorem respects_deleteSession (sound : application.Sound) (id : String) :
    application.Respects (application.deleteSession id) := by
  unfold deleteSession
  split
  · exact respects_self sound _
  · rename_i registry opened
    have isSound := sound.openRegistry opened
    simp only
    cases outcome : (registry.delete id).1 with
    | error error =>
      exact respects_withRegistry opened (isSound.narrows_delete id).sound
        fun _ => Registry.kept_of_delete_error outcome application.now
    | ok done =>
      exact respects_withRegistry opened (isSound.narrows_delete id).sound
        fun rejects => absurd rejects (not_rejects_success (.inl rfl) _)

theorem respects_listVariables (sound : application.Sound) (id : String) :
    application.Respects (application.listVariables id) := by
  unfold listVariables
  split
  · exact respects_self sound _
  · rename_i registry opened
    have isSound := sound.openRegistry opened
    simp only
    cases outcome : (registry.get application.now id).1 with
    | error error =>
      exact respects_withRegistry opened (isSound.narrows_get _ id).sound
        fun _ => Registry.kept_of_get_error isSound outcome
    | ok calculator =>
      exact respects_withRegistry opened (isSound.narrows_get _ id).sound
        fun rejects => absurd rejects (not_rejects_success (.inl rfl) _)

/-- A report is never a rejection, whatever the service is left like. -/
theorem respects_answerReport {after : Application} (sound : after.Sound) (session : Json)
    (outcome : Except EvaluationFailure Report) :
    application.Respects (answerReport after session outcome) := by
  cases outcome with
  | error failure => exact ⟨sound, False.elim⟩
  | ok report => exact ⟨sound, fun rejects => absurd rejects (not_rejects_success (.inl rfl) _)⟩

theorem respects_evaluateIn (sound : application.Sound) (id expression : String) :
    application.Respects (application.evaluateIn id expression) := by
  unfold evaluateIn
  split
  · exact respects_self sound _
  · rename_i registry opened
    have isSound := sound.openRegistry opened
    have fetched := isSound.narrows_get application.now id
    simp only
    cases outcome : (registry.get application.now id).1 with
    | error error =>
      exact respects_withRegistry opened fetched.sound
        fun _ => Registry.kept_of_get_error isSound outcome
    | ok calculator =>
      simp only
      rcases calculator.evaluate application.random expression with ⟨evaluated, used, random⟩
      refine respects_answerReport ?_ _ evaluated
      intro found isFound
      obtain rfl := Option.some.inj isFound
      exact fetched.sound.store id used

theorem respects_evaluate (sound : application.Sound) (payload : EvaluatePayload) :
    application.Respects (application.evaluate payload) := by
  unfold evaluate
  split
  · unfold evaluateOnce
    split
    · exact respects_self sound _
    · rename_i settings _
      simp only
      rcases Calculator.evaluate { settings := settings } application.random payload.expression with
        ⟨evaluated, used, random⟩
      refine respects_answerReport ?_ _ evaluated
      exact sound
  · exact respects_evaluateIn sound _ _

theorem respects_reorder (sound : application.Sound) (payload : PostfixPayload) :
    application.Respects (application.reorder payload) := by
  unfold reorder
  split
  · exact respects_self sound _
  · exact respects_self sound _

theorem respects_showHome (sound : application.Sound) :
    application.Respects application.showHome := by
  unfold showHome
  split
  · exact respects_self sound _
  · exact respects_self sound _

theorem respects_withPayload {Payload : Type} (sound : application.Sound) (request : Request)
    (read : Json.Foreign → Except (List Complaint) Payload) {handle : Application → Payload → Handled}
    (respects : ∀ payload, application.Respects (handle application payload)) :
    application.Respects (application.withPayload request read handle) := by
  unfold withPayload
  split
  · exact respects_self sound _
  · exact respects_self sound _
  · exact respects _

theorem respects_respondAt (sound : application.Sound) (request : Request) (route : Route) :
    application.Respects (application.respondAt request route) := by
  cases route with
  | home => exact respects_showHome sound
  | sessions => exact respects_withPayload sound request _ (respects_createSession sound)
  | session id => exact respects_deleteSession sound id
  | tableOf id => exact respects_listVariables sound id
  | evaluate => exact respects_withPayload sound request _ (respects_evaluate sound)
  | postfixOrder => exact respects_withPayload sound request _ (respects_reorder sound)
  | asset path => exact respects_self sound _

theorem respects_respond (sound : application.Sound) (request : Request) (method : String) :
    application.Respects (application.respond request method) := by
  unfold respond
  split
  · exact respects_self sound _
  · exact respects_self sound _
  · exact respects_self sound _
  · split
    · exact respects_self sound _
    · exact respects_respondAt sound request _

/-- What is written is what was responded, and what cannot be written is no rejection. -/
theorem Respects.written {handled : Handled} (respects : application.Respects handled) :
    application.Respects (handled.1.bind application.write, handled.2) := by
  obtain ⟨outcome, after⟩ := handled
  refine ⟨respects.sound, fun rejects => respects.keeps ?_⟩
  cases outcome with
  | error fault => exact rejects
  | ok response =>
    simp only [Except.bind, write] at rejects
    split at rejects
    · exact rejects
    · exact False.elim rejects

theorem respects_handle (sound : application.Sound) (request : Request) :
    application.Respects (application.handle request) := by
  have written := (respects_respond sound request (Text.upperCase request.method)).written
  unfold handle
  simp only
  revert written
  rcases application.respond request (Text.upperCase request.method) with ⟨outcome, after⟩
  intro written
  simp only at written ⊢
  cases told : outcome.bind application.write with
  | error fault =>
    rw [told] at written
    simp only
    split
    · exact ⟨written.sound, False.elim⟩
    · refine ⟨written.sound, ?_⟩
      show (500 : Int) ∈ rejections → _
      exact fun listed => absurd listed (by decide)
  | ok response =>
    rw [told] at written
    simp only
    refine ⟨written.sound, ?_⟩
    intro rejects
    apply written.keeps
    -- the answer to HEAD has the status that it has with its content
    simp only [answer] at rejects
    split at rejects
    · exact rejects
    · exact rejects

/-! ## Runs -/

/-- What happens to the service: requests, and the passing of time. -/
inductive Step where
  | request (request : Request)
  | advance (span : Nat)

def step (application : Application) : Step → Application
  | .request request => (application.handle request).2
  | .advance span => application.advance span

def run (application : Application) (steps : List Step) : Application :=
  steps.foldl step application

theorem Sound.step (sound : application.Sound) (next : Step) : (application.step next).Sound := by
  cases next with
  | request request => exact (respects_handle sound request).sound
  | advance span => exact sound

theorem Sound.run (sound : application.Sound) (steps : List Step) :
    (application.run steps).Sound := by
  unfold Application.run
  induction steps generalizing application with
  | nil => exact sound
  | cons next steps inner => exact inner (sound.step next)

/-- Whatever requests came before and whatever time has passed, a request that is answered with one
of the statuses of a rejection leaves every live session with its last access, its settings and its
variables, brings no session into the registry, and drops none that has not expired. -/
theorem rejected_request_keeps_sessions (configuration : Configuration) (random : RandomSource)
    (limits : Limits) (steps : List Step) (request : Request) {response : Response}
    (answered : (((start configuration random limits).run steps).handle request).1 = .ok response)
    (rejected : response.status ∈ rejections) :
    let before := (start configuration random limits).run steps
    let after := (before.handle request).2
    after.now = before.now ∧ (∀ id, after.live? id = before.live? id) ∧
      after.entries.Sublist before.entries ∧
      ∀ entry ∈ before.entries, entry ∉ after.entries → before.IsExpired entry := by
  intro before after
  have started : (start configuration random limits).Sound := nofun
  have kept := (respects_handle (started.run steps) request).keeps (answered ▸ rejected)
  exact ⟨kept.now, kept.live, kept.left, kept.dropped⟩

/-- A configuration of one minute and two sessions. -/
def brief : Configuration where
  site := .null
  summary := .null
  calculator := [("session_ttl_minutes", .int 1), ("max_sessions", .int 2)]
  maxContentLength := Configuration.defaultContentLength
  testing := true

/-- Two sessions, of which the first one expires before the second one. -/
def twoSessions : List Step :=
  [.request ⟨"POST", "/api/calculator/sessions", "", none⟩, .advance (40 * 1000000),
    .request ⟨"POST", "/api/calculator/sessions", "", none⟩, .advance (30 * 1000000)]

/-- A request for the variables of an unknown session is rejected and drops the session that has
expired. -/
theorem rejected_request_keeps_second_session :
    let before := (start brief (.cycling [])).run twoSessions
    let handled := before.handle ⟨"GET", "/api/calculator/sessions/nobody/variables", "", none⟩
    (∃ response, handled.1 = .ok response ∧ response.status ∈ rejections) ∧
      before.entries.map (·.id) = [sessionId 1, sessionId 2] ∧
      handled.2.entries.map (·.id) = [sessionId 2] ∧ handled.2.now = before.now ∧
      (∀ id, handled.2.live? id = before.live? id) ∧
      handled.2.entries.Sublist before.entries ∧
      ∀ entry ∈ before.entries, entry ∉ handled.2.entries → before.IsExpired entry := by
  intro before handled
  have status : handled.1.toOption.any (·.status = 404) = true := by decide +kernel
  cases answered : handled.1 with
  | error fault =>
    rw [answered] at status
    cases status
  | ok response =>
    rw [answered] at status
    have rejected : response.status ∈ rejections := by
      have found : response.status = 404 := of_decide_eq_true status
      rw [found]
      decide
    exact ⟨⟨response, rfl, rejected⟩, by decide +kernel, by decide +kernel,
      rejected_request_keeps_sessions brief (.cycling []) .usual twoSessions _ answered rejected⟩

end Application

end Service

end Reckoner
