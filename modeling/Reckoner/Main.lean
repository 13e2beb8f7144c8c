import Reckoner.CommandLine.Run

/-!
# The program

Runs the command line on the arguments of the process, and on its standard input if it is needed.
The random numbers come from a generator that is seeded once for each run.
-/

set_option autoImplicit false

namespace Reckoner

/-- The number of steps of a generator that make one random number. -/
def randomSteps : Nat := 4503599627370496

/-- The source that draws from a generator, which goes on where the draw before it ended. -/
def RandomSource.ofSeed (seed : Nat) : RandomSource where
  sequence := fun index =>
    let generator := (List.range index).foldl (fun current _ => (stdNext current).2) (mkStdGen seed)
    let (number, _) := randNat generator 0 (randomSteps - 1)
    Binary64.ofInt number / Binary64.ofInt randomSteps

end Reckoner

/-- Runs the program, writes what it leaves behind, and ends with its exit code. -/
def main (arguments : List String) : IO UInt32 := do
  let seed ← IO.monoNanosNow
  let input ←
    if Reckoner.CommandLine.readsInput arguments then (← IO.getStdin).readToEnd else pure ""
  let outcome := Reckoner.CommandLine.run arguments input (.ofSeed seed)
  (← IO.getStdout).putStr outcome.output
  (← IO.getStderr).putStr (outcome.diagnostics ++ outcome.complaint)
  match outcome.failure with
  | none => return UInt32.ofNat outcome.exitCode
  | some failure =>
    (← IO.getStderr).putStr (failure.message ++ "\n")
    return 1
