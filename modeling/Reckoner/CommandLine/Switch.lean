/-!
# Switches

The switches of the command line and how they are spelt. A long spelling may be shortened to any
beginning that only one switch has.
-/

set_option autoImplicit false

namespace Reckoner.CommandLine

inductive Switch where
  | help
  | precision
  | resultPrecision
  | degree
  | verbose
  | json
  deriving Repr, DecidableEq

namespace Switch

/-- The spellings of all switches, in the order in which the usage lists them. -/
def spellings : List (String × Switch) :=
  [("-h", help), ("--help", help), ("--precision", precision),
    ("--result-precision", resultPrecision), ("--degree", degree), ("--verbose", verbose),
    ("--json", json)]

/-- Switches that are followed by a value. -/
def takesValue : Switch → Bool
  | precision | resultPrecision => true
  | _ => false

def title (switch : Switch) : String :=
  String.intercalate "/" ((spellings.filter (·.2 = switch)).map (·.1))

def ofSpelling? (text : String) : Option Switch :=
  spellings.lookup text

def beginningWith (text : String) : List (String × Switch) :=
  spellings.filter fun entry => text.toList.isPrefixOf entry.1.toList

end Switch

end Reckoner.CommandLine
