import Reckoner.Package.Units

/-!
# Byte units

A byte unit is a binary multiple: a megabyte here is `2 ^ 20` bytes.
-/

set_option autoImplicit false

namespace Reckoner

inductive ByteUnit where
  | mega
  | giga
  | tera
  | peta
  deriving Repr, DecidableEq

namespace ByteUnit

def all : List ByteUnit := [mega, giga, tera, peta]

def name : ByteUnit → String
  | mega => "mb"
  | giga => "gb"
  | tera => "tb"
  | peta => "pb"

def ofName? (text : String) : Option ByteUnit :=
  all.find? fun unit => unit.name == text

def multiple : ByteUnit → ByteMultiple
  | mega => .mebi
  | giga => .gibi
  | tera => .tebi
  | peta => .pebi

def bytes (unit : ByteUnit) : Float :=
  unit.multiple.bytes

def toBytes (unit : ByteUnit) (amount : Float) : Float :=
  amount * unit.bytes

theorem ofName?_name (unit : ByteUnit) : ofName? unit.name = some unit := by
  cases unit <;> decide

end ByteUnit

end Reckoner
