/-!
# Units of information

What the library of units says of the binary multiples of the byte.
-/

set_option autoImplicit false

namespace Reckoner

inductive ByteMultiple where
  | mebi
  | gibi
  | tebi
  | pebi
  deriving Repr, DecidableEq

/-- The bytes in a multiple: `2 ^ 20`, `2 ^ 30`, `2 ^ 40` and `2 ^ 50`, which are doubles. -/
def ByteMultiple.bytes : ByteMultiple → Float
  | mebi => Float.ofBits 0x4130000000000000
  | gibi => Float.ofBits 0x41D0000000000000
  | tebi => Float.ofBits 0x4270000000000000
  | pebi => Float.ofBits 0x4310000000000000

end Reckoner
