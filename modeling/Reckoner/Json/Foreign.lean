import Reckoner.Json.Basic
import Reckoner.Text.CodePoint

/-!
# Values from outside

A value that has been read has strings and names of code points. It stands for a value of characters
unless a surrogate is in one of them.
-/

set_option autoImplicit false

namespace Reckoner.Json

open Text

/-- A value as it has been read. -/
abbrev Foreign := Json CodePoints

/-- A value of characters, as it would be read. -/
def foreign (value : Json) : Foreign :=
  value.map CodePoints.ofString

mutual

/-- The value of characters that a value from outside stands for. -/
def native? : Foreign → Option Json
  | null => some null
  | bool value => some (bool value)
  | int value => some (int value)
  | float value => some (float value)
  | string value => value.toString?.map string
  | array elements => (nativeElements? elements).map array
  | object members => (nativeMembers? members).map object

def nativeElements? : List Foreign → Option (List Json)
  | [] => some []
  | element :: rest => do some ((← element.native?) :: (← nativeElements? rest))

def nativeMembers? : Members CodePoints → Option Members
  | [] => some []
  | (name, value) :: rest => do
    some (((← name.toString?), (← value.native?)) :: (← nativeMembers? rest))

end

end Reckoner.Json
