import Reckoner.Proofs.Completion
import Reckoner.Proofs.Service.Rejection

/-!
# What stands through a run of the service

No request changes the configuration, and the registry goes on as its operations leave it. So what
holds of every registry that the configuration makes, and is kept by each operation, holds of the
registry after any requests. One such property is that the registry is sound and that its lifetime
is not negative. A property may rest on the settings of the calculators, if it is known which
settings a session can be given.
-/

set_option autoImplicit false

namespace Reckoner

namespace Registry

/-- A property of registries that every operation keeps, and that lets no calculator have other
settings than those allowed if none is given others. -/
structure IsKept (allowed : Settings → Prop) (property : Registry → Prop) : Prop where
  create : ∀ registry, property registry → ∀ now settings, allowed settings →
    property (registry.create now settings).2
  get : ∀ registry, property registry → ∀ now id, property (registry.get now id).2
  fetched : ∀ registry, property registry → ∀ now id calculator,
    (registry.get now id).1 = .ok calculator → allowed calculator.settings
  delete : ∀ registry, property registry → ∀ id, property (registry.delete id).2
  store : ∀ registry, property registry → ∀ id calculator, allowed calculator.settings →
    property (registry.store id calculator)

/-- A sound registry in which a session is not expired at the moment of its last access. -/
structure Lasting (registry : Registry) : Prop where
  sound : registry.Sound
  lifetime : 0 ≤ registry.lifetime

theorem Lasting.narrow {registry after : Registry} (lasting : registry.Lasting)
    (narrows : registry.Narrows after) : after.Lasting :=
  ⟨narrows.sound, narrows.lifetime ▸ lasting.lifetime⟩

theorem lasting_isKept : IsKept (fun _ => True) Lasting where
  create := fun registry lasting now settings _ =>
    ⟨lasting.sound.create now settings,
      (registry.create_frame now settings).1 ▸ lasting.lifetime⟩
  get := fun _ lasting now id => lasting.narrow (lasting.sound.narrows_get now id)
  fetched := fun _ _ _ _ _ _ => trivial
  delete := fun _ lasting id => lasting.narrow (lasting.sound.narrows_delete id)
  store := fun _ lasting id calculator _ =>
    lasting.narrow (lasting.sound.narrows_store id calculator)

end Registry

namespace Service

namespace Application

variable {allowed : Settings → Prop} {property : Registry → Prop} {application : Application}

/-- The settings that a configuration has for a session with a payload. -/
def Grants (configuration : Configuration) (payload : SessionPayload) (settings : Settings) : Prop :=
  ∃ defaults, configuration.defaultSettings = .ok defaults ∧
    defaults.override (wholeOrNull payload.precision) (wholeOrNull payload.resultPrecision)
      (truthOrNull payload.degree) = .ok settings

/-- A property holds of the registry, if there is one, and of every registry that the configuration
makes, and no payload is granted other settings than those allowed. -/
structure Stands (allowed : Settings → Prop) (property : Registry → Prop)
    (application : Application) : Prop where
  there : ∀ registry, application.registry = some registry → property registry
  made : ∀ registry, application.configuration.emptyRegistry = .ok registry → property registry
  granted : ∀ value payload settings, SessionPayload.ofJson value = .ok payload →
    Grants application.configuration payload settings → allowed settings

/-- The service after something that leaves its configuration and its limits alone, where a property
still stands. -/
structure Continues (allowed : Settings → Prop) (property : Registry → Prop)
    (application after : Application) : Prop where
  configuration : after.configuration = application.configuration
  limits : after.limits = application.limits
  stands : after.Stands allowed property

/-- A payload that is read is what some value is read as. -/
theorem exists_of_readPayload {Payload : Type} {request : Request}
    {read : Json.Foreign → Except (List Complaint) Payload} {payload : Payload}
    (found : application.readPayload request read = .ok payload) :
    ∃ value, application.payload request = .ok value ∧ read value = .ok payload := by
  obtain ⟨value, given, found⟩ := exists_of_bind found
  refine ⟨value, given, ?_⟩
  cases fits : read value with
  | error complaints =>
    rw [fits] at found
    cases found
  | ok other =>
    rw [fits] at found
    cases found
    rfl

namespace Stands

theorem opened (stands : application.Stands allowed property) {registry : Registry}
    (opens : application.openRegistry = .ok registry) : property registry := by
  unfold openRegistry at opens
  cases there : application.registry with
  | some found =>
    rw [there] at opens
    exact stands.there registry (there.trans (congrArg some (Except.ok.inj opens)))
  | none =>
    rw [there] at opens
    exact stands.made registry opens

theorem self (stands : application.Stands allowed property) :
    application.Continues allowed property application :=
  ⟨rfl, rfl, stands⟩

theorem withRegistry (stands : application.Stands allowed property) {registry : Registry}
    (holds : property registry) :
    application.Continues allowed property (application.withRegistry registry) := by
  refine ⟨rfl, rfl, ?_, stands.made, stands.granted⟩
  intro found isFound
  obtain rfl := Option.some.inj isFound
  exact holds

theorem answerReport {after : Application} (continues : application.Continues allowed property after)
    (session : Json) (outcome : Except EvaluationFailure Report) :
    application.Continues allowed property (answerReport after session outcome).2 := by
  cases outcome with
  | error failure => exact continues
  | ok report => exact continues

theorem drawn {after : Application} (continues : application.Continues allowed property after)
    (random : RandomSource) :
    application.Continues allowed property { after with random := random } :=
  ⟨continues.configuration, continues.limits, continues.stands.there, continues.stands.made,
    continues.stands.granted⟩

variable (kept : Registry.IsKept allowed property)

include kept

theorem createSession (stands : application.Stands allowed property) {value : Json.Foreign}
    {payload : SessionPayload} (read : SessionPayload.ofJson value = .ok payload) :
    application.Continues allowed property (application.createSession payload).2 := by
  unfold Application.createSession
  split
  · exact stands.self
  · rename_i defaults loads
    split
    · exact stands.self
    · rename_i settings overridden
      split
      · exact stands.self
      · rename_i registry opens
        have isAllowed := stands.granted value payload settings read ⟨defaults, loads, overridden⟩
        have after := stands.withRegistry
          (kept.create registry (stands.opened opens) application.now settings isAllowed)
        simp only
        cases (registry.create application.now settings).1 with
        | error error => exact after
        | ok id => exact after

theorem deleteSession (stands : application.Stands allowed property) (id : String) :
    application.Continues allowed property (application.deleteSession id).2 := by
  unfold Application.deleteSession
  split
  · exact stands.self
  · rename_i registry opens
    have after := stands.withRegistry (kept.delete registry (stands.opened opens) id)
    simp only
    cases (registry.delete id).1 with
    | error error => exact after
    | ok done => exact after

theorem listVariables (stands : application.Stands allowed property) (id : String) :
    application.Continues allowed property (application.listVariables id).2 := by
  unfold Application.listVariables
  split
  · exact stands.self
  · rename_i registry opens
    have after := stands.withRegistry
      (kept.get registry (stands.opened opens) application.now id)
    simp only
    cases (registry.get application.now id).1 with
    | error error => exact after
    | ok calculator => exact after

theorem evaluateIn (stands : application.Stands allowed property) (id expression : String) :
    application.Continues allowed property (application.evaluateIn id expression).2 := by
  unfold Application.evaluateIn
  split
  · exact stands.self
  · rename_i registry opens
    have after := kept.get registry (stands.opened opens) application.now id
    simp only
    cases fetched : (registry.get application.now id).1 with
    | error error => exact stands.withRegistry after
    | ok calculator =>
      have isAllowed := kept.fetched registry (stands.opened opens) application.now id calculator
        fetched
      rw [← calculator.settings_use (.evaluate application.random expression)] at isAllowed
      exact answerReport (drawn (stands.withRegistry (kept.store _ after id _ isAllowed)) _) _ _

theorem evaluate (stands : application.Stands allowed property) (payload : EvaluatePayload) :
    application.Continues allowed property (application.evaluate payload).2 := by
  unfold Application.evaluate
  split
  · unfold Application.evaluateOnce
    split
    · exact stands.self
    · exact answerReport (drawn stands.self _) _ _
  · exact stands.evaluateIn kept _ _

omit kept in
theorem reorder (stands : application.Stands allowed property) (payload : PostfixPayload) :
    application.Continues allowed property (application.reorder payload).2 := by
  unfold Application.reorder
  split
  · exact stands.self
  · exact stands.self

omit kept in
theorem showHome (stands : application.Stands allowed property) :
    application.Continues allowed property application.showHome.2 := by
  unfold Application.showHome
  split
  · exact stands.self
  · exact stands.self

omit kept in
theorem withPayload {Payload : Type} (stands : application.Stands allowed property) (request : Request)
    (read : Json.Foreign → Except (List Complaint) Payload) {handle : Application → Payload → Handled}
    (continues : ∀ value payload, read value = .ok payload →
      application.Continues allowed property (handle application payload).2) :
    application.Continues allowed property (application.withPayload request read handle).2 := by
  unfold Application.withPayload
  split
  · exact stands.self
  · exact stands.self
  · rename_i payload found
    obtain ⟨value, -, fits⟩ := exists_of_readPayload found
    exact continues value payload fits

theorem respondAt (stands : application.Stands allowed property) (request : Request) (route : Route) :
    application.Continues allowed property (application.respondAt request route).2 := by
  cases route with
  | home => exact stands.showHome
  | sessions => exact stands.withPayload request _ fun _ _ => stands.createSession kept
  | session id => exact stands.deleteSession kept id
  | tableOf id => exact stands.listVariables kept id
  | evaluate => exact stands.withPayload request _ fun _ payload _ => stands.evaluate kept payload
  | postfixOrder => exact stands.withPayload request _ fun _ payload _ => stands.reorder payload
  | asset path => exact stands.self

theorem respond (stands : application.Stands allowed property) (request : Request) (method : String) :
    application.Continues allowed property (application.respond request method).2 := by
  unfold Application.respond
  split
  · exact stands.self
  · exact stands.self
  · exact stands.self
  · split
    · exact stands.self
    · exact stands.respondAt kept request _

theorem handle (stands : application.Stands allowed property) (request : Request) :
    application.Continues allowed property (application.handle request).2 := by
  have responded := stands.respond kept request (Text.upperCase request.method)
  unfold Application.handle
  simp only
  revert responded
  rcases application.respond request (Text.upperCase request.method) with ⟨outcome, after⟩
  intro responded
  simp only
  cases outcome.bind application.write with
  | error fault =>
    simp only
    split
    · exact responded
    · exact responded
  | ok response => exact responded

theorem step (stands : application.Stands allowed property) (next : Step) :
    application.Continues allowed property (application.step next) := by
  cases next with
  | request request => exact stands.handle kept request
  | advance span => exact ⟨rfl, rfl, stands.there, stands.made, stands.granted⟩

/-- What every operation keeps stands through every run. -/
theorem run (stands : application.Stands allowed property) (steps : List Step) :
    application.Continues allowed property (application.run steps) := by
  unfold Application.run
  induction steps generalizing application with
  | nil => exact stands.self
  | cons next steps inner =>
    have first := stands.step kept next
    have later := inner first.stands
    exact ⟨later.configuration.trans first.configuration, later.limits.trans first.limits,
      later.stands⟩

end Stands

/-! ## Registries that the configuration makes -/

theorem one_le_readPositive {configuration : Configuration} {name : String} {fallback number : Int}
    (positive : 1 ≤ fallback) (read : configuration.readPositive name fallback = .ok number) :
    1 ≤ number := by
  unfold Configuration.readPositive Settings.coerceInt at read
  cases whole : Settings.readWhole (Configuration.entry configuration.calculator name) with
  | error error =>
    rw [whole] at read
    cases read
  | ok found =>
    rw [whole] at read
    cases found with
    | none =>
      cases read
      exact positive
    | some value =>
      have same : (if decide (value < 1) then fallback else value) = number := Except.ok.inj read
      rw [← same]
      split
      · exact positive
      · rename_i large
        simpa using large

theorem eq_of_ofMinutes {count span : Int} (made : TimeSpan.ofMinutes count = .ok span) :
    span = count * TimeSpan.minute := by
  unfold TimeSpan.ofMinutes TimeSpan.ofMicroseconds at made
  simp only at made
  split at made
  · cases made
  · split at made
    · cases made
    · exact (Except.ok.inj made).symm

theorem lasting_emptyRegistry {configuration : Configuration} {registry : Registry}
    (made : configuration.emptyRegistry = .ok registry) : registry.Lasting := by
  obtain ⟨minutes, isMinutes, made⟩ := exists_of_bind made
  obtain ⟨lifetime, isLifetime, made⟩ := exists_of_bind made
  obtain ⟨capacity, -, made⟩ := exists_of_bind made
  obtain rfl := (Except.ok.inj made).symm
  refine ⟨Registry.sound_empty lifetime capacity 0, ?_⟩
  have positive := one_le_readPositive (by decide) isMinutes
  cases spanned : TimeSpan.ofMinutes minutes with
  | error error =>
    rw [spanned] at isLifetime
    cases isLifetime
  | ok span =>
    rw [spanned] at isLifetime
    obtain rfl := Except.ok.inj isLifetime
    rw [eq_of_ofMinutes spanned]
    exact Int.mul_nonneg (by omega) (by decide)

/-- After any run the configuration and the limits are those at the start, and the registry is
lasting. -/
theorem lasting_run (configuration : Configuration) (random : RandomSource) (limits : Limits)
    (steps : List Step) :
    (start configuration random limits).Continues (fun _ => True) Registry.Lasting
      ((start configuration random limits).run steps) := by
  have started : (start configuration random limits).Stands (fun _ => True) Registry.Lasting :=
    ⟨nofun, fun _ => lasting_emptyRegistry, fun _ _ _ _ _ => trivial⟩
  exact started.run Registry.lasting_isKept steps

end Application

end Service

end Reckoner
