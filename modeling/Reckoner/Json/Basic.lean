/-!
# JSON values

The values that configurations, request bodies and answers are made of. Whole numbers of any size
and doubles are kept apart, and an object is the list of its members in the order in which their
names first occurred. Strings and names are texts of characters, unless another type of texts is
given.
-/

set_option autoImplicit false

namespace Reckoner

inductive Json (Str : Type := String) where
  | null
  | bool (value : Bool)
  | int (value : Int)
  | float (value : Float)
  | string (value : Str)
  | array (elements : List (Json Str))
  | object (members : List (Str × Json Str))
  deriving Repr, Inhabited

namespace Json

inductive Kind where
  | null
  | bool
  | int
  | float
  | string
  | array
  | object
  deriving Repr, DecidableEq

def Kind.name : Kind → String
  | null => "null"
  | bool => "a truth value"
  | int => "a whole number"
  | float => "a double"
  | string => "a string"
  | array => "an array"
  | object => "an object"

section

variable {Str : Type}

def kind : Json Str → Kind
  | null => .null
  | bool _ => .bool
  | int _ => .int
  | float _ => .float
  | string _ => .string
  | array _ => .array
  | object _ => .object

abbrev Members (Str : Type := String) := List (Str × Json Str)

def Members.get? [BEq Str] (members : Members Str) (name : Str) : Option (Json Str) :=
  List.lookup name members

/-- The members with a name's value replaced in its place, or added at the end. -/
def Members.set [BEq Str] (members : Members Str) (name : Str) (value : Json Str) : Members Str :=
  if members.any (·.1 == name) then
    members.map fun member => if member.1 == name then (name, value) else member
  else members ++ [(name, value)]

/-- The value a configuration counts as given: not empty, not zero, not false and not null. A NaN
counts as given. The empty text is the one that a type of texts has by default. -/
def truthy [BEq Str] [Inhabited Str] : Json Str → Bool
  | null => false
  | bool value => value
  | int value => value ≠ 0
  | float value => !(value == Float.ofBits 0)
  | string value => value != default
  | array elements => !elements.isEmpty
  | object members => !members.isEmpty

/-! ## Levels -/

mutual

/-- The levels that it takes to write a value: one for every array and object around a place in it,
and one more in an object of several members, the names of which are compared to be put in order. -/
def levels : Json Str → Nat
  | array elements => elementLevels elements + 1
  | object members => max (memberLevels members) (if members.length ≤ 1 then 0 else 1) + 1
  | _ => 0

def elementLevels : List (Json Str) → Nat
  | [] => 0
  | element :: rest => max element.levels (elementLevels rest)

def memberLevels : Members Str → Nat
  | [] => 0
  | (_, value) :: rest => max value.levels (memberLevels rest)

end

/-! ## Values with other texts -/

variable {Other : Type} (change : Str → Other)

mutual

/-- The value with every string and every name changed. -/
def map : Json Str → Json Other
  | null => null
  | bool value => bool value
  | int value => int value
  | float value => float value
  | string value => string (change value)
  | array elements => array (mapElements elements)
  | object members => object (mapMembers members)

def mapElements : List (Json Str) → List (Json Other)
  | [] => []
  | element :: rest => element.map :: mapElements rest

def mapMembers : Members Str → Members Other
  | [] => []
  | (name, value) :: rest => (change name, value.map) :: mapMembers rest

end

end

/-- A value that counts as given and has no members, where members are needed. -/
structure MembersMissing where
  found : Kind
  deriving Repr, DecidableEq

/-- What is reported of a value without members. -/
def MembersMissing.message (missing : MembersMissing) : String :=
  "an object is needed, not " ++ missing.found.name

/-- The members that a value gives; a value that counts as not given has none. -/
def givenMembers : Json → Except MembersMissing Members
  | object members => .ok members
  | value => if value.truthy then .error ⟨value.kind⟩ else .ok []

def strings (texts : List String) : Json :=
  array (texts.map string)

/-- A string, or null in its absence. -/
def stringOrNull : Option String → Json
  | none => null
  | some text => string text

end Json

end Reckoner
