import Reckoner.Proofs.Binary64.Exact
import Reckoner.Service.Configuration

/-!
# Loading a configuration

A configuration that has its sections is loaded whatever the entries in them are, and each setting
is what its own entry gives, or its default. Only an infinity stands in the way: as a precision, or
as the number of bytes that a number of kilobytes makes. So does the name of a profile that stands
for a text.
-/

set_option autoImplicit false

namespace Reckoner

open Binary64

/-! ## Doubles without their fractions -/

namespace Binary64

/-- The whole number that is left of a rational number without its fraction. -/
def towardZero (number : ℚ) : ℤ :=
  if 0 ≤ number then ⌊number⌋ else ⌈number⌉

theorem truncate_eq_towardZero (number : Float) : truncate number = towardZero (value number) := by
  have nonneg := magnitude_nonneg number
  unfold truncate towardZero value
  cases isNegative number with
  | false =>
    simp only [Bool.false_eq_true, if_false, if_pos nonneg]
    rfl
  | true =>
    simp only [if_true]
    rcases nonneg.eq_or_lt with zero | positive
    · rw [← zero]
      rfl
    · rw [if_neg (by linarith), Int.ceil_neg]
      rfl

end Binary64

/-! ## Entries and what they give -/

/-- A setting is what its entry gives, and the default for an entry that gives nothing. -/
def FallsBack {α : Type} (gives : Json → α → Prop) (fallback : α) (entry : Json) (setting : α) :
    Prop :=
  gives entry setting ∨ (∀ other, ¬ gives entry other) ∧ setting = fallback

namespace Settings

open Service.Configuration (entry)

/-- The whole number that an entry gives. -/
inductive GivesWhole : Json → Int → Prop where
  | bool (value : Bool) : GivesWhole (.bool value) value.toInt
  | int (value : Int) : GivesWhole (.int value) value
  | float {value : Float} (finite : value.isFinite = true) :
      GivesWhole (.float value) (towardZero (Binary64.value value))
  | string {text : String} {value : Int} (read : readInt? text = some value) :
      GivesWhole (.string text) value

/-- An entry gives a precision as a whole number that is not below the one for no rounding. -/
def GivesPrecision (entry : Json) (number : Int) : Prop :=
  GivesWhole entry number ∧ Precision.unset.toInt ≤ number

/-- The truth value that an entry gives. -/
inductive GivesSwitch : Json → Bool → Prop where
  | bool (value : Bool) : GivesSwitch (.bool value) value
  | on {text : String} (word : Text.lowerCase (Text.strip text) ∈ onWords) :
      GivesSwitch (.string text) true
  | off {text : String} (word : Text.lowerCase (Text.strip text) ∈ offWords) :
      GivesSwitch (.string text) false

/-- An entry that is an infinite double. -/
def IsInfinity (entry : Json) : Prop :=
  ∃ value : Float, entry = .float value ∧ value.isInf = true

theorem readWhole_of_isInfinity {entry : Json} (infinite : IsInfinity entry) :
    readWhole entry = .error ⟨⟩ := by
  obtain ⟨value, rfl, inf⟩ := infinite
  obtain ⟨-, notInf, -⟩ | ⟨noNaN, -, -⟩ | ⟨-, notInf, -⟩ := classes value
  · exact Bool.noConfusion (notInf.symm.trans inf)
  · simp only [readWhole, noNaN, inf, Bool.false_eq_true, if_false, if_true]
  · exact Bool.noConfusion (notInf.symm.trans inf)

/-- Every other entry is read, as the whole number that it gives. -/
theorem exists_readWhole {entry : Json} (bounded : ¬ IsInfinity entry) :
    ∃ number, readWhole entry = .ok number ∧ ∀ whole, number = some whole ↔ GivesWhole entry whole := by
  cases entry with
  | null | array | object =>
    exact ⟨none, rfl, fun whole => iff_of_false nofun nofun⟩
  | bool value =>
    refine ⟨some value.toInt, by cases value <;> rfl, fun whole => ⟨?_, ?_⟩⟩
    · rintro ⟨⟩
      exact .bool value
    · rintro ⟨⟩
      rfl
  | int value =>
    refine ⟨some value, rfl, fun whole => ⟨?_, ?_⟩⟩
    · rintro ⟨⟩
      exact .int value
    · rintro ⟨⟩
      rfl
  | string text =>
    refine ⟨readInt? text, rfl, fun whole => ⟨.string, ?_⟩⟩
    rintro ⟨⟩
    assumption
  | float value =>
    obtain ⟨nan, -, notFinite⟩ | ⟨-, inf, -⟩ | ⟨noNaN, notInf, finite⟩ := classes value
    · refine ⟨none, by simp only [readWhole, nan, if_true], fun whole => iff_of_false nofun ?_⟩
      intro given
      cases given with
      | float finite => exact Bool.noConfusion (notFinite.symm.trans finite)
    · exact absurd ⟨value, rfl, inf⟩ bounded
    · refine ⟨some (truncate value), ?_, fun whole => ?_⟩
      · simp only [readWhole, noNaN, notInf, Bool.false_eq_true, if_false]
      · rw [truncate_eq_towardZero]
        refine ⟨?_, ?_⟩
        · rintro ⟨⟩
          exact .float finite
        · rintro ⟨⟩
          rfl

theorem coercePrecision_of_isInfinity {entry : Json} (infinite : IsInfinity entry) :
    coercePrecision entry = .error ⟨⟩ := by
  unfold coercePrecision coerceInt
  rw [readWhole_of_isInfinity infinite]
  rfl

theorem toInt_ofInt? {number : Int} (least : Precision.unset.toInt ≤ number) :
    ((Precision.ofInt? number).getD .unset).toInt = number := by
  simp only [Precision.toInt] at least
  unfold Precision.ofInt?
  split
  · rename_i unset
    exact unset.symm
  · rw [if_pos (by omega)]
    exact Int.toNat_of_nonneg (by omega)

/-- An entry that is no infinity leaves its precision at what it gives, or at the default. -/
theorem exists_coercePrecision {entry : Json} (bounded : ¬ IsInfinity entry) :
    ∃ precision, coercePrecision entry = .ok precision ∧
      FallsBack GivesPrecision Precision.unset.toInt entry precision.toInt := by
  obtain ⟨number, read, gives⟩ := exists_readWhole bounded
  unfold coercePrecision coerceInt
  rw [read]
  cases number with
  | none =>
    exact ⟨.unset, rfl, .inr ⟨fun other given => (nomatch (gives other).2 given.1), rfl⟩⟩
  | some whole =>
    have given := (gives whole).1 rfl
    by_cases least : Precision.unset.toInt ≤ whole
    · refine ⟨(Precision.ofInt? whole).getD .unset, ?_, .inl ?_⟩
      · simp only [Precision.toInt] at least
        simp [not_lt.2 least, pure, bind, Except.pure, Except.bind]
      · rw [toInt_ofInt? least]
        exact ⟨given, least⟩
    · refine ⟨.unset, ?_, .inr ⟨fun other given => ?_, rfl⟩⟩
      · simp only [Precision.toInt, not_le] at least
        simp [least, Precision.ofInt?, pure, bind, Except.pure, Except.bind]
      · cases (gives other).2 given.1
        exact least given.2

theorem coerceBool_fallsBack (entry : Json) (fallback : Bool) :
    FallsBack GivesSwitch fallback entry (coerceBool entry fallback) := by
  cases entry with
  | null | int | float | array | object => exact .inr ⟨nofun, rfl⟩
  | bool value => exact .inl (.bool value)
  | string text =>
    simp only [coerceBool, List.contains_iff_mem]
    split
    · rename_i on
      exact .inl (.on on)
    · rename_i notOn
      split
      · rename_i off
        exact .inl (.off off)
      · rename_i notOff
        refine .inr ⟨?_, rfl⟩
        rintro _ (_ | on | off)
        · exact notOn on
        · exact notOff off

/-- The settings that a section's entries make: none of a precision that is an infinity, and each
of them by its own entry. -/
theorem ofConfiguration_eq_ok_iff (members : Json.Members) (settings : Settings) :
    ofConfiguration members = .ok settings ↔
      coercePrecision (entry members "precision") = .ok settings.precision ∧
        coercePrecision (entry members "result_precision") = .ok settings.resultPrecision ∧
          settings.degree = .bool (coerceBool (entry members "degree") false) := by
  have unfolded : ofConfiguration members = (do
      let operand ← coercePrecision (entry members "precision")
      let result ← coercePrecision (entry members "result_precision")
      return ⟨operand, result, .bool (coerceBool (entry members "degree") false)⟩) := rfl
  rw [unfolded]
  obtain ⟨precision, resultPrecision, degree⟩ := settings
  cases coercePrecision (entry members "precision") with
  | error => exact iff_of_false nofun nofun
  | ok operand =>
    cases coercePrecision (entry members "result_precision") with
    | error => exact iff_of_false nofun nofun
    | ok result =>
      simp only [bind, Except.bind, pure, Except.pure, Except.ok.injEq, mk.injEq]
      exact and_congr_right fun _ => and_congr_right fun _ => eq_comm

end Settings

/-! ## Sections -/

namespace Service

open Reckoner.Service.Configuration

/-- A section of a configuration is an object, or it counts as missing. -/
def IsSection (value : Json) : Prop :=
  value.truthy = false ∨ ∃ members, value = .object members

/-- The members of a section; none if it is missing. -/
def membersOf : Json → Json.Members
  | .object members => members
  | _ => []

theorem sectionMembers_of_isSection {value : Json} (isSection : IsSection value) :
    sectionMembers value = .ok (membersOf value) := by
  obtain missing | ⟨members, rfl⟩ := isSection
  · cases value with
    | object members => rfl
    | null | bool | int | float | string | array =>
      simp [sectionMembers, Json.givenMembers, missing, membersOf, Except.mapError]
  · rfl

/-- The entries of the section about the site. -/
def siteMembers (value : Json) : Json.Members :=
  membersOf (entry (membersOf value) "site")

/-- The entries of the calculator's section. -/
def calculatorMembers (value : Json) : Json.Members :=
  membersOf (entry (membersOf (entry (membersOf value) "plugins")) "calculator")

/-- A configuration whose sections are objects or missing, whatever is in them. -/
structure HasSections (value : Json) : Prop where
  top : IsSection value
  site : IsSection (entry (membersOf value) "site")
  plugins : IsSection (entry (membersOf value) "plugins")
  calculator : IsSection (entry (membersOf (entry (membersOf value) "plugins")) "calculator")

/-! ## The bound on bodies -/

/-- The number of bytes that an entry gives as a number of kilobytes. -/
inductive GivesBytes : Json → Int → Prop where
  | kilobytes {entry : Json} {number : Float} (read : entry.readNumber = .ok number)
      (finite : (number * bytesPerKilobyte).isFinite = true) :
      GivesBytes entry (towardZero (value (number * bytesPerKilobyte)))

/-- An entry that makes more bytes than a double can count. -/
def Overflows (entry : Json) : Prop :=
  entry.readNumber = .error .tooLarge ∨
    ∃ number, entry.readNumber = .ok number ∧ (number * bytesPerKilobyte).isInf = true

theorem readKilobytes_of_overflows {entry : Json} (overflows : Overflows entry) :
    ∃ error, readKilobytes entry = .error error := by
  obtain tooLarge | ⟨number, read, infinite⟩ := overflows
  · exact ⟨.integerTooLarge, by rw [readKilobytes, tooLarge]⟩
  · refine ⟨.infinite, ?_⟩
    rw [readKilobytes, read]
    obtain ⟨-, notInf, -⟩ | ⟨noNaN, -, -⟩ | ⟨-, notInf, -⟩ := classes (number * bytesPerKilobyte)
    · exact Bool.noConfusion (notInf.symm.trans infinite)
    · simp only [bytesOfKilobytes, noNaN, infinite, Bool.false_eq_true, if_false, if_true]
    · exact Bool.noConfusion (notInf.symm.trans infinite)

theorem exists_readKilobytes {entry : Json} (bounded : ¬ Overflows entry) :
    ∃ bytes, readKilobytes entry = .ok bytes ∧
      FallsBack GivesBytes defaultContentLength entry bytes := by
  unfold readKilobytes
  cases read : entry.readNumber with
  | error error =>
    have unread : ∀ bytes, ¬ GivesBytes entry bytes := by
      rintro _ ⟨given, -⟩
      rw [read] at given
      cases given
    cases error with
    | tooLarge => exact absurd (.inl read) bounded
    | refused | notANumber => exact ⟨defaultContentLength, rfl, .inr ⟨unread, rfl⟩⟩
  | ok number =>
    simp only [bytesOfKilobytes]
    obtain ⟨nan, -, notFinite⟩ | ⟨-, inf, -⟩ | ⟨noNaN, notInf, finite⟩ :=
      classes (number * bytesPerKilobyte)
    · refine ⟨defaultContentLength, by simp only [nan, if_true], .inr ⟨?_, rfl⟩⟩
      rintro _ ⟨given, finite⟩
      rw [read] at given
      cases given
      exact Bool.noConfusion (notFinite.symm.trans finite)
    · exact absurd (.inr ⟨number, read, inf⟩) bounded
    · refine ⟨towardZero (value (number * bytesPerKilobyte)), ?_, .inl (.kilobytes read finite)⟩
      simp only [noNaN, notInf, Bool.false_eq_true, if_false, truncate_eq_towardZero]

theorem readContentLength_of_isSection {site : Json} (isSection : IsSection site) :
    readContentLength site = readKilobytes (entry (membersOf site) "max_content_length_kb") := by
  obtain missing | ⟨members, rfl⟩ := isSection
  · cases site with
    | object members => rfl
    | string | array => rfl
    | null | bool | int | float =>
      simp only [readContentLength, missing, Bool.false_eq_true, if_false]
      rfl
  · rfl

/-! ## The whole configuration -/

/-- Settings of which each is what its own entry in a section gives, or its default. -/
structure AreSettingsOf (members : Json.Members) (settings : Settings) : Prop where
  precision : FallsBack Settings.GivesPrecision Precision.unset.toInt (entry members "precision")
    settings.precision.toInt
  resultPrecision : FallsBack Settings.GivesPrecision Precision.unset.toInt
    (entry members "result_precision") settings.resultPrecision.toInt
  degree : ∃ on, settings.degree = .bool on ∧
    FallsBack Settings.GivesSwitch false (entry members "degree") on

/-- What is configured by a value under the profile that another value names. -/
structure IsConfiguredBy (value profileName : Json) (configuration : Configuration) : Prop where
  calculator : configuration.calculator = calculatorMembers value
  profiled : ∀ profile : Profile, profileName = .string profile.name →
    configuration.maxContentLength = defaultContentLength
  bounded : (∀ profile : Profile, profileName ≠ .string profile.name) →
    FallsBack GivesBytes defaultContentLength (entry (siteMembers value) "max_content_length_kb")
      configuration.maxContentLength

theorem ofConfiguration_of_isInfinity {members : Json.Members}
    (infinite : Settings.IsInfinity (entry members "precision") ∨
      Settings.IsInfinity (entry members "result_precision")) :
    Settings.ofConfiguration members = .error ⟨⟩ := by
  cases made : Settings.ofConfiguration members with
  | error => rfl
  | ok settings =>
    obtain ⟨operand, result, -⟩ := (Settings.ofConfiguration_eq_ok_iff members settings).1 made
    obtain infinite | infinite := infinite
    · rw [Settings.coercePrecision_of_isInfinity infinite] at operand
      cases operand
    · rw [Settings.coercePrecision_of_isInfinity infinite] at result
      cases result

theorem exists_ofConfiguration {members : Json.Members}
    (operandBounded : ¬ Settings.IsInfinity (entry members "precision"))
    (resultBounded : ¬ Settings.IsInfinity (entry members "result_precision")) :
    ∃ settings, Settings.ofConfiguration members = .ok settings ∧
      AreSettingsOf members settings := by
  obtain ⟨operand, readOperand, byOperand⟩ := Settings.exists_coercePrecision operandBounded
  obtain ⟨result, readResult, byResult⟩ := Settings.exists_coercePrecision resultBounded
  let on := Settings.coerceBool (entry members "degree") false
  refine ⟨⟨operand, result, .bool on⟩, ?_, byOperand, byResult, on, rfl, ?_⟩
  · exact (Settings.ofConfiguration_eq_ok_iff members _).2 ⟨readOperand, readResult, rfl⟩
  · exact Settings.coerceBool_fallsBack _ _

/-- The outcome of loading a configuration that has its sections hangs on the bound on bodies. -/
theorem ofJson_of_hasSections {value profileName : Json} (sections : HasSections value)
    {profile : Option Profile} (profiled : Profile.ofJson profileName = .ok profile) :
    Configuration.ofJson value profileName =
      (readKilobytes (entry (siteMembers value) "max_content_length_kb")).map fun contentLength =>
        { site := entry (membersOf value) "site"
          summary := readSummary (calculatorMembers value)
          calculator := calculatorMembers value
          maxContentLength := if profile.isSome then defaultContentLength else contentLength
          testing := profile = some .testing } := by
  unfold Configuration.ofJson
  rw [sectionMembers_of_isSection sections.top]
  simp only [bind, Except.bind, pure, Except.pure]
  rw [readContentLength_of_isSection sections.site]
  unfold siteMembers
  cases readKilobytes (entry (membersOf (entry (membersOf value) "site")) "max_content_length_kb") with
  | error => rfl
  | ok contentLength =>
    simp only [profiled, sectionMembers_of_isSection sections.plugins,
      sectionMembers_of_isSection sections.calculator]
    rfl

/-- A configuration that has its sections is not loaded under a name that stands for a text. -/
theorem exists_error_of_unloadable {value profileName : Json} (sections : HasSections value)
    {error : ConfigurationError} (refused : Profile.ofJson profileName = .error error) :
    ∃ error, Configuration.ofJson value profileName = .error error := by
  unfold Configuration.ofJson
  rw [sectionMembers_of_isSection sections.top]
  simp only [bind, Except.bind, refused]
  cases readContentLength (entry (membersOf value) "site") with
  | error earlier => exact ⟨earlier, rfl⟩
  | ok contentLength => exact ⟨error, rfl⟩

theorem exists_profile {profileName : Json}
    (named : profileName = .null ∨ ∃ name, profileName = .string name)
    (loadable : ∀ name ∈ Profile.unloadable, profileName ≠ .string name) :
    ∃ profile, Profile.ofJson profileName = .ok profile ∧
      (profile = none ↔ ∀ profile : Profile, profileName ≠ .string profile.name) := by
  obtain rfl | ⟨name, rfl⟩ := named
  · exact ⟨none, rfl, iff_of_true rfl fun _ => nofun⟩
  · refine ⟨Profile.ofName? name, if_neg fun member => loadable name member rfl, ?_⟩
    simp only [Profile.ofName?, List.find?_eq_none, decide_eq_true_eq, ne_eq, Json.string.injEq]
    constructor
    · intro noProfile profile same
      exact noProfile profile (by cases profile <;> simp) same.symm
    · intro noProfile profile _ same
      exact noProfile profile same.symm

/-- A configuration that has its sections is loaded, whatever the entries in them are, unless the
number of kilobytes overflows or the profile's name stands for a text; and its calculator's section
makes settings, each by its own entry, unless a precision is an infinity. -/
theorem loading_fallsBack {value profileName : Json} (sections : HasSections value)
    (named : profileName = .null ∨ ∃ name, profileName = .string name) :
    (Overflows (entry (siteMembers value) "max_content_length_kb") →
      ∃ error, Configuration.ofJson value profileName = .error error) ∧
    ((∃ name ∈ Profile.unloadable, profileName = .string name) →
      ∃ error, Configuration.ofJson value profileName = .error error) ∧
    (¬ Overflows (entry (siteMembers value) "max_content_length_kb") →
      (∀ name ∈ Profile.unloadable, profileName ≠ .string name) →
      ∃ configuration, Configuration.ofJson value profileName = .ok configuration ∧
        IsConfiguredBy value profileName configuration) ∧
    (Settings.IsInfinity (entry (calculatorMembers value) "precision") ∨
        Settings.IsInfinity (entry (calculatorMembers value) "result_precision") →
      Settings.ofConfiguration (calculatorMembers value) = .error ⟨⟩) ∧
    (¬ Settings.IsInfinity (entry (calculatorMembers value) "precision") →
      ¬ Settings.IsInfinity (entry (calculatorMembers value) "result_precision") →
      ∃ settings, Settings.ofConfiguration (calculatorMembers value) = .ok settings ∧
        AreSettingsOf (calculatorMembers value) settings) := by
  have unloaded (standing : ∃ name ∈ Profile.unloadable, profileName = .string name) :
      ∃ error, Configuration.ofJson value profileName = .error error := by
    obtain ⟨name, member, rfl⟩ := standing
    exact exists_error_of_unloadable sections (if_pos member)
  refine ⟨fun overflows => ?_, unloaded, fun bounded loadable => ?_, ?_⟩
  · by_cases standing : ∃ name ∈ Profile.unloadable, profileName = .string name
    · exact unloaded standing
    · obtain ⟨profile, profiled, -⟩ :=
        exists_profile named fun name member same => standing ⟨name, member, same⟩
      obtain ⟨error, refused⟩ := readKilobytes_of_overflows overflows
      exact ⟨error, by rw [ofJson_of_hasSections sections profiled, refused]; rfl⟩
  · obtain ⟨profile, profiled, noProfile⟩ := exists_profile named loadable
    obtain ⟨bytes, read, fallsBack⟩ := exists_readKilobytes bounded
    rw [ofJson_of_hasSections sections profiled]
    refine ⟨_, by rw [read]; rfl, rfl, fun other same => ?_, fun none => ?_⟩
    · have some : profile.isSome := Option.isSome_iff_ne_none.2 fun absent =>
        noProfile.1 absent other same
      exact if_pos some
    · rw [noProfile.2 none]
      exact fallsBack
  · exact ⟨ofConfiguration_of_isInfinity, exists_ofConfiguration⟩

/-- A configuration with hardly an entry as it should be. -/
def careless : Json :=
  .object
    [("site", .object [("max_content_length_kb", .string "plenty")]),
      ("plugins", .object
        [("calculator", .object
          [("precision", .int (-7)), ("result_precision", .string " 2 "), ("degree", .array [])])])]

theorem loading_fallsBack_of_careless :
    HasSections careless ∧
      (∃ configuration, Configuration.ofJson careless .null = .ok configuration ∧
        IsConfiguredBy careless .null configuration) ∧
      ∃ settings, Settings.ofConfiguration (calculatorMembers careless) = .ok settings ∧
        AreSettingsOf (calculatorMembers careless) settings := by
  have sections : HasSections careless :=
    ⟨.inr ⟨_, rfl⟩, .inr ⟨_, rfl⟩, .inr ⟨_, rfl⟩, .inr ⟨_, rfl⟩⟩
  have bounded : ¬ Overflows (entry (siteMembers careless) "max_content_length_kb") := by
    have refused : (entry (siteMembers careless) "max_content_length_kb").readNumber =
        .error (.refused ⟨"plenty"⟩) := by
      decide +kernel
    rintro (tooLarge | ⟨number, read, -⟩)
    · rw [refused] at tooLarge
      cases tooLarge
    · rw [refused] at read
      cases read
  obtain ⟨-, -, loaded, -, settled⟩ := loading_fallsBack sections (.inl rfl)
  exact ⟨sections, loaded bounded fun _ _ => nofun, settled nofun nofun⟩

/-- A configuration with infinities for numbers. -/
def endless : Json :=
  .object
    [("site", .object [("max_content_length_kb", .float (infinity false))]),
      ("plugins", .object
        [("calculator", .object [("precision", .float (infinity false))])])]

theorem endless_refused :
    HasSections endless ∧ Configuration.ofJson endless .null = .error .infinite ∧
      Settings.ofConfiguration (calculatorMembers endless) = .error ⟨⟩ := by
  have sections : HasSections endless :=
    ⟨.inr ⟨_, rfl⟩, .inr ⟨_, rfl⟩, .inr ⟨_, rfl⟩, .inr ⟨_, rfl⟩⟩
  have refused : readKilobytes (.float (infinity false)) = .error .infinite := by
    decide +kernel
  refine ⟨sections, ?_, ofConfiguration_of_isInfinity (.inl ⟨_, rfl, ?_⟩)⟩
  · rw [ofJson_of_hasSections sections rfl]
    exact congrArg (Except.map _) refused
  · decide +kernel

end Service

end Reckoner
