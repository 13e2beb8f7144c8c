/-!
# Random numbers

A source of random numbers is the sequence of the numbers it gives, together with how many of them
have been drawn.
-/

set_option autoImplicit false

namespace Reckoner

structure RandomSource where
  sequence : Nat → Float
  drawn : Nat := 0

namespace RandomSource

/-- The next number of a source, and the source from which it has been drawn. -/
def next (source : RandomSource) : Float × RandomSource :=
  (source.sequence source.drawn, { source with drawn := source.drawn + 1 })

/-- The source that gives the numbers of a list in turn, over and over; a quarter for an empty
list. -/
def cycling (numbers : List Float) : RandomSource where
  sequence := fun index =>
    (numbers[index % numbers.length]?).getD (Float.ofBits 0x3FD0000000000000)

end RandomSource

end Reckoner
