import Reckoner.Json.Number
import Reckoner.Registry
import Reckoner.Settings.Coercion

/-!
# Configuration of the service

A configuration has a section about the site and a section for each plugin. A section that is
missing or empty leaves everything at its default, and so does each entry that cannot be read,
whatever the others are. Not forgiven are a section that is no object, a number that is infinite or
too large for what it counts, and the name of a profile that stands for a text.
-/

set_option autoImplicit false

namespace Reckoner.Service

/-- The reasons why a configuration is refused, as a whole or where it is needed. -/
inductive ConfigurationError where
  | infinite
  | integerTooLarge
  | lifetime (error : SpanError)
  | noSection (missing : Json.MembersMissing)
  | scalarSite (found : Json.Kind)
  | profileName (found : Json.Kind)
  | unloadable (name : String)
  deriving Repr, DecidableEq

def ConfigurationError.message : ConfigurationError → String
  | infinite => (InfiniteInteger.mk).message
  | integerTooLarge => NumberError.tooLarge.message
  | lifetime error => error.message
  | noSection missing => missing.message
  | scalarSite found => "the section about the site cannot be " ++ found.name
  | profileName found => "a profile is named by a string, not by " ++ found.name
  | unloadable name => "what is named " ++ name ++ " names nothing that can be loaded"

inductive Profile where
  | standard
  | testing
  deriving Repr, DecidableEq

def Profile.name : Profile → String
  | standard => "BaseConfig"
  | testing => "TestingConfig"

def Profile.ofName? (name : String) : Option Profile :=
  [standard, testing].find? fun profile => profile.name = name

/-- The names that stand for a text, beside the profiles. What a text names is loaded in its turn,
and these texts, a description and the places of two files, name nothing. -/
def Profile.unloadable : List String := ["__doc__", "__file__", "__cached__"]

/-- The profile that a value names. A value that counts as not given, and a name that neither a
profile nor such a text has, leave the service without one. -/
def Profile.ofJson (value : Json) : Except ConfigurationError (Option Profile) :=
  match value with
  | .string name => if name ∈ unloadable then .error (.unloadable name) else .ok (ofName? name)
  | other => if other.truthy then .error (.profileName other.kind) else .ok none

/-- What the service is configured with. The section about the site need not be an object: it is
only asked for its members when somebody looks at the home page. -/
structure Configuration where
  site : Json
  summary : Json
  calculator : Json.Members
  maxContentLength : Int
  testing : Bool
  deriving Repr

namespace Configuration

/-- The title of a site that has none. -/
def defaultTitle : String := "Calc Server"

/-- What the calculator is about, unless the configuration has other words for it. -/
def defaultSummary : String :=
  "Evaluate arithmetic expressions with functions, byte units and session variables."

/-- The most bytes of a body, unless the configuration has another number. -/
def defaultContentLength : Int := 65536

def supplied : Json :=
  .object
    [("site", .object
        [("title", .string defaultTitle), ("max_content_length_kb", .int 64)]),
      ("plugins", .object
        [("calculator", .object
          [("summary", .string defaultSummary), ("precision", .int (-1)),
            ("result_precision", .int (-1)), ("degree", .bool false),
            ("max_sessions", .int Registry.defaultCapacity),
            ("session_ttl_minutes", .int Registry.defaultMinutes)])])]

/-- The members of a section; none if there is no such section. -/
def sectionMembers (value : Json) : Except ConfigurationError Json.Members :=
  value.givenMembers.mapError .noSection

/-- The value that a section has under a name; null in its absence. -/
def entry (members : Json.Members) (name : String) : Json :=
  (members.get? name).getD .null

def bytesPerKilobyte : Float := Binary64.ofInt 1024

/-- The whole number of bytes that a number of kilobytes makes; no number makes the default. -/
def bytesOfKilobytes (kilobytes : Float) : Except ConfigurationError Int :=
  let bytes := kilobytes * bytesPerKilobyte
  if bytes.isNaN then .ok defaultContentLength
  else if bytes.isInf then .error .infinite
  else .ok (Binary64.truncate bytes)

/-- The most bytes of a body that a value allows. -/
def readKilobytes (value : Json) : Except ConfigurationError Int :=
  match value.readNumber with
  | .ok kilobytes => bytesOfKilobytes kilobytes
  | .error .tooLarge => .error .integerTooLarge
  | .error _ => .ok defaultContentLength

/-- The most bytes of a body that the section about the site allows. A string or an array in place
of the section allows the default. -/
def readContentLength (site : Json) : Except ConfigurationError Int :=
  match site with
  | .object members => readKilobytes (entry members "max_content_length_kb")
  | .string _ | .array _ => .ok defaultContentLength
  | other => if other.truthy then .error (.scalarSite other.kind) else .ok defaultContentLength

def readSummary (calculator : Json.Members) : Json :=
  match calculator.get? "summary" with
  | some value => if value.truthy then value else .string defaultSummary
  | none => .string defaultSummary

/-- What a configuration says under the profile that a value names. The profile has the default
bound on bodies. -/
def ofJson (value profileName : Json) : Except ConfigurationError Configuration := do
  let members ← sectionMembers value
  let site := entry members "site"
  let contentLength ← readContentLength site
  let profile ← Profile.ofJson profileName
  let calculator ← sectionMembers (entry (← sectionMembers (entry members "plugins")) "calculator")
  return {
    site := site
    summary := readSummary calculator
    calculator := calculator
    maxContentLength := if profile.isSome then defaultContentLength else contentLength
    testing := profile = some .testing }

def defaultSettings (configuration : Configuration) : Except ConfigurationError Settings :=
  (Settings.ofConfiguration configuration.calculator).mapError fun _ => .infinite

/-- A whole number in the calculator's section, or the default for one that is missing, unreadable
or not positive. -/
def readPositive (configuration : Configuration) (name : String) (fallback : Int) :
    Except ConfigurationError Int :=
  (Settings.coerceInt (entry configuration.calculator name) fallback (some 1)).mapError
    fun _ => .infinite

def emptyRegistry (configuration : Configuration) : Except ConfigurationError Registry := do
  let minutes ← configuration.readPositive "session_ttl_minutes" Registry.defaultMinutes
  let lifetime ← (TimeSpan.ofMinutes minutes).mapError .lifetime
  let capacity ← configuration.readPositive "max_sessions" Registry.defaultCapacity
  return { lifetime := lifetime, capacity := capacity }

def title (configuration : Configuration) : Except ConfigurationError Json := do
  let members ← sectionMembers configuration.site
  return (members.get? "title").getD (.string defaultTitle)

def homePage (configuration : Configuration) : Except ConfigurationError Json := do
  let title ← configuration.title
  return .object
    [("title", title),
      ("plugins", .array
        [.object
          [("title", .string "Calculator"), ("summary", configuration.summary),
            ("category", .string "General Utilities"), ("blueprint", .string "calculator")]])]

end Configuration

end Reckoner.Service
