import Reckoner.Proofs.Service.Loading
import Reckoner.Proofs.Service.Standing

/-!
# The service as it is supplied

Under the configuration that is supplied there is a registry and there are default settings, and no
payload asks for more than fifteen decimal places. So every calculator in the registry has workable
settings at all times, and no evaluation in a session stops.
-/

set_option autoImplicit false

namespace Reckoner

namespace Registry

/-- A registry of calculators that refuse no rounding. -/
def IsWorkable (registry : Registry) : Prop :=
  ∀ entry ∈ registry.calculators, entry.2.settings.Workable

variable {registry : Registry}

theorem IsWorkable.release (workable : registry.IsWorkable) (leaves : SessionEntry → Bool) :
    (registry.release leaves).IsWorkable := by
  intro entry member
  obtain ⟨before, there, rfl⟩ := List.mem_map.1 member
  have same : (if (registry.entries.filter leaves).any (·.id == before.1) then before.2.close
      else before.2).settings = before.2.settings := by
    split
    · rfl
    · rfl
  exact same ▸ workable before there

theorem workable_isKept : IsKept Settings.Workable IsWorkable where
  create := by
    intro registry workable now settings isAllowed
    have purged : (registry.purge now).IsWorkable := workable.release _
    rcases registry.create_cases now settings with ⟨-, refused⟩ | ⟨-, created⟩
    · rw [refused]
      exact purged
    · rw [created]
      intro entry member
      obtain there | new := List.mem_append.1 member
      · exact purged entry there
      · obtain rfl := List.mem_singleton.1 new
        exact isAllowed
  get := by
    intro registry workable now id
    have purged : (registry.purge now).IsWorkable := workable.release _
    unfold get
    simp only
    split
    · split
      · exact purged
      · exact purged
    · exact purged
  fetched := by
    intro registry workable now id calculator fetched
    have purged : (registry.purge now).IsWorkable := workable.release _
    unfold get at fetched
    simp only at fetched
    split at fetched
    · split at fetched
      · rename_i found
        obtain ⟨before, after, calculators, -⟩ := List.lookup_eq_some_iff.1 found
        cases fetched
        exact purged (id, calculator) (by rw [calculators]; simp)
      · cases fetched
    · cases fetched
  delete := by
    intro registry workable id
    unfold delete
    split
    · exact workable.release _
    · exact workable
  store := by
    intro registry workable id calculator isAllowed entry member
    obtain ⟨before, there, rfl⟩ := List.mem_map.1 member
    simp only
    split
    · exact isAllowed
    · exact workable before there

end Registry

namespace Service

open Text

/-! ## Settings that payloads ask for -/

theorem le_mostPlaces_of_readPlaces {value : Json.Foreign} {number : Int}
    (read : readPlaces value = .ok number) : number ≤ mostPlaces := by
  unfold readPlaces readBoundedWhole at read
  obtain ⟨whole, -, bounded⟩ := Application.exists_of_bind read
  split at bounded
  · cases bounded
  · rename_i most
    split at bounded
    · cases bounded
    · obtain rfl := Except.ok.inj bounded
      exact Int.not_lt.1 most

theorem le_mostPlaces_of_optional {members : Json.Members CodePoints} {name : String}
    {places : Option Int} (read : optional members name readPlaces = .ok places) :
    ∀ number ∈ places, number ≤ mostPlaces := by
  intro number isNumber
  obtain rfl := Option.mem_def.1 isNumber
  unfold optional at read
  split at read
  · cases read
  · cases read
  · rename_i value _ _
    unfold readMember at read
    cases found : readPlaces value with
    | error problem =>
      rw [found] at read
      cases read
    | ok result =>
      rw [found] at read
      cases read
      exact le_mostPlaces_of_readPlaces found

theorem SessionPayload.le_mostPlaces {value : Json.Foreign} {payload : SessionPayload}
    (read : SessionPayload.ofJson value = .ok payload) :
    (∀ number ∈ payload.precision, number ≤ mostPlaces) ∧
      ∀ number ∈ payload.resultPrecision, number ≤ mostPlaces := by
  unfold ofJson readObject at read
  split at read
  · split at read
    · cases read
    · simp only at read
      split at read
      · rename_i precision resultPrecision _ _
        cases read
        exact ⟨le_mostPlaces_of_optional precision, le_mostPlaces_of_optional resultPrecision⟩
      · cases read
  · cases read

end Service

theorem Precision.workable_of_ofInt? {number : Int} {precision : Precision}
    (made : ofInt? number = some precision) (few : number ≤ Service.mostPlaces) :
    precision.Workable := by
  unfold ofInt? at made
  split at made
  · obtain rfl := Option.some.inj made
    trivial
  · split at made
    · obtain rfl := Option.some.inj made
      simp only [Service.mostPlaces] at few
      show (number.toNat : Int) + 769 ≤ Decimal.maxWorkingDigits
      simp only [Decimal.maxWorkingDigits]
      omega
    · cases made

namespace Settings

theorem exists_of_readPrecision {field : PrecisionField} {value : Json} {precision : Precision}
    (read : readPrecision field value = .ok precision) :
    ∃ number, value = .int number ∧ Precision.ofInt? number = some precision := by
  unfold readPrecision at read
  split at read
  · rename_i number
    split at read
    · rename_i made
      obtain rfl := Except.ok.inj read
      exact ⟨number, rfl, made⟩
    · cases read
  · cases read

/-- What replaces a workable precision by at most fifteen places is workable. -/
theorem workable_of_given {field : PrecisionField} {before after : Precision}
    {asked : Option Int} (workable : before.Workable)
    (few : ∀ number ∈ asked, number ≤ Service.mostPlaces)
    (read : readPrecision field (given (Service.Application.wholeOrNull asked) (.int before.toInt)) =
      .ok after) : after.Workable := by
  obtain ⟨number, isNumber, made⟩ := exists_of_readPrecision read
  cases asked with
  | none =>
    obtain rfl := Json.int.inj isNumber
    rw [Precision.ofInt?_toInt] at made
    obtain rfl := Option.some.inj made
    exact workable
  | some places =>
    obtain rfl := Json.int.inj isNumber
    exact Precision.workable_of_ofInt? made (few places rfl)

end Settings

namespace Service

namespace Application

/-- Whatever a payload asks for, workable defaults make workable settings. -/
theorem workable_of_grants {configuration : Configuration}
    (workable : ∀ defaults, configuration.defaultSettings = .ok defaults → defaults.Workable)
    {value : Json.Foreign} {payload : SessionPayload} {settings : Settings}
    (read : SessionPayload.ofJson value = .ok payload)
    (grants : Grants configuration payload settings) : settings.Workable := by
  obtain ⟨defaults, loads, overridden⟩ := grants
  obtain ⟨fewOperand, fewResult⟩ := payload.le_mostPlaces read
  obtain ⟨operand, isOperand, overridden⟩ := exists_of_bind overridden
  obtain ⟨result, isResult, overridden⟩ := exists_of_bind overridden
  obtain rfl := Except.ok.inj overridden
  have before := workable defaults loads
  exact ⟨Settings.workable_of_given before.precision fewOperand isOperand,
    Settings.workable_of_given before.resultPrecision fewResult isResult⟩

end Application

/-! ## The supplied configuration -/

namespace Configuration

/-- The configuration that is supplied, as it is loaded. -/
def loaded (testing : Bool) : Configuration where
  site := .object [("title", .string defaultTitle), ("max_content_length_kb", .int 64)]
  summary := .string defaultSummary
  calculator :=
    [("summary", .string defaultSummary), ("precision", .int (-1)), ("result_precision", .int (-1)),
      ("degree", .bool false), ("max_sessions", .int Registry.defaultCapacity),
      ("session_ttl_minutes", .int Registry.defaultMinutes)]
  maxContentLength := defaultContentLength
  testing := testing

/-- Under every profile the same is loaded, but for whether it is the one for tests. -/
theorem ofJson_supplied {profileName : Json} {profile : Option Profile}
    (profiled : Profile.ofJson profileName = .ok profile) :
    ofJson supplied profileName = .ok (loaded (profile = some .testing)) := by
  have sections : HasSections supplied :=
    ⟨.inr ⟨_, rfl⟩, .inr ⟨_, rfl⟩, .inr ⟨_, rfl⟩, .inr ⟨_, rfl⟩⟩
  have bytes : readKilobytes (entry (siteMembers supplied) "max_content_length_kb") =
      .ok defaultContentLength := by
    decide +kernel
  rw [ofJson_of_hasSections sections profiled, bytes]
  simp only [Except.map, ite_self]
  rfl

theorem exists_loaded {profileName : Json} {configuration : Configuration}
    (made : ofJson supplied profileName = .ok configuration) :
    ∃ testing, configuration = loaded testing := by
  have profiled : ∃ profile, Profile.ofJson profileName = .ok profile := by
    obtain ⟨_, -, made⟩ := Application.exists_of_bind made
    obtain ⟨_, -, made⟩ := Application.exists_of_bind made
    obtain ⟨profile, profiled, -⟩ := Application.exists_of_bind made
    exact ⟨profile, profiled⟩
  obtain ⟨profile, profiled⟩ := profiled
  exact ⟨_, Except.ok.inj (made.symm.trans (ofJson_supplied profiled))⟩

theorem defaultSettings_loaded (testing : Bool) :
    (loaded testing).defaultSettings = .ok ⟨.unset, .unset, .bool false⟩ :=
  rfl

theorem exists_emptyRegistry (testing : Bool) :
    ∃ registry, (loaded testing).emptyRegistry = .ok registry :=
  ⟨_, rfl⟩

end Configuration

namespace Application

variable {application : Application}

/-- A service under the supplied configuration whose calculators refuse no rounding. -/
structure IsReady (application : Application) : Prop where
  configured : ∃ testing, application.configuration = Configuration.loaded testing
  stands : application.Stands Settings.Workable Registry.IsWorkable

theorem isReady_start (testing : Bool) (random : RandomSource) (limits : Limits) :
    (start (Configuration.loaded testing) random limits).IsReady where
  configured := ⟨testing, rfl⟩
  stands.there := nofun
  stands.made := by
    intro registry made
    obtain ⟨lifetime, capacity, rfl⟩ := emptyRegistry_eq made
    exact fun _ member => absurd member List.not_mem_nil
  stands.granted := by
    intro value payload settings read grants
    refine workable_of_grants ?_ read grants
    intro defaults loads
    obtain rfl := Except.ok.inj ((Configuration.defaultSettings_loaded testing).symm.trans loads)
    exact ⟨trivial, trivial⟩

theorem IsReady.run (ready : application.IsReady) (steps : List Step) :
    (application.run steps).IsReady := by
  have continues := ready.stands.run Registry.workable_isKept steps
  obtain ⟨testing, same⟩ := ready.configured
  exact ⟨⟨testing, continues.configuration.trans same⟩, continues.stands⟩

theorem IsReady.defaultSettings (ready : application.IsReady) :
    application.configuration.defaultSettings = .ok ⟨.unset, .unset, .bool false⟩ := by
  obtain ⟨testing, same⟩ := ready.configured
  rw [same]
  exact Configuration.defaultSettings_loaded testing

theorem IsReady.exists_openRegistry (ready : application.IsReady) :
    ∃ registry, application.openRegistry = .ok registry ∧ registry.IsWorkable := by
  have exists_registry : ∃ registry, application.openRegistry = .ok registry := by
    unfold openRegistry
    cases application.registry with
    | some registry => exact ⟨registry, rfl⟩
    | none =>
      obtain ⟨testing, same⟩ := ready.configured
      rw [same]
      exact Configuration.exists_emptyRegistry testing
  obtain ⟨registry, opens⟩ := exists_registry
  exact ⟨registry, opens, ready.stands.opened opens⟩

end Application

end Service

end Reckoner
