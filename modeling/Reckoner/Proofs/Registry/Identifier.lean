import Reckoner.Registry
import Reckoner.Proofs.Hexadecimal

/-!
# Identifiers of sessions

Different sessions have different identifiers, since hexadecimal digits with zeros in front write no
more than one number.
-/

set_option autoImplicit false

namespace Reckoner

theorem sessionId_injective {number other : Nat} (same : sessionId number = sessionId other) :
    number = other := by
  have digits := String.ofList_injective same
  rw [← Text.hexadecimalValue_hexadecimal 32 number, digits, Text.hexadecimalValue_hexadecimal]

end Reckoner
