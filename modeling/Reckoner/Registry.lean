import Reckoner.Calculator
import Reckoner.TimeSpan

/-!
# The registry of sessions

A session is a calculator that is reached by its identifier. The registry drops a session that has
not been accessed for longer than its lifetime, but only when a session is created or fetched; until
then an expired session is still counted and can still be deleted. A calculator loses its variables
when it leaves the registry. Whoever fetched it before may go on using it, so the registry keeps
every calculator it ever made.

Moments and spans of time are whole numbers of microseconds.
-/

set_option autoImplicit false

namespace Reckoner

/-- The identifier of the session with a number: at least thirty-two hexadecimal digits. -/
def sessionId (number : Nat) : String :=
  String.ofList (Text.hexadecimal 32 number)

/-- A session in the registry, and the moment of its last access. -/
structure SessionEntry where
  id : String
  lastAccess : Int
  deriving Repr, DecidableEq

inductive RegistryError where
  | notFound
  | full
  deriving Repr, DecidableEq

def RegistryError.message : RegistryError → String
  | notFound => "Session expired or not found"
  | full => "Too many active calculator sessions"

/-- A registry: its sessions in the order of their creation, the number of identifiers given out,
and every calculator it made, each under its session's identifier. -/
structure Registry where
  lifetime : Int
  capacity : Int
  issued : Nat := 0
  entries : List SessionEntry := []
  calculators : List (String × Calculator) := []
  deriving Repr

namespace Registry

/-- The lifetime of a session in minutes, unless another one is asked for. -/
def defaultMinutes : Int := 30

/-- The lifetime of a session, unless another one is asked for. -/
def defaultLifetime : Int := defaultMinutes * TimeSpan.minute

/-- The number of sessions in a registry, unless another one is asked for. -/
def defaultCapacity : Int := 64

/-- The number of sessions in the registry, expired ones among them. -/
def size (registry : Registry) : Nat :=
  registry.entries.length

/-- Whether the registry holds a session, expired or not. -/
def holds (registry : Registry) (id : String) : Bool :=
  registry.entries.any (·.id == id)

/-- The calculator that was made under an identifier, whether or not its session is still there. -/
def calculator? (registry : Registry) (id : String) : Option Calculator :=
  registry.calculators.lookup id

/-- Whether a session's lifetime has passed since its last access. -/
def isExpired (registry : Registry) (now : Int) (entry : SessionEntry) : Bool :=
  registry.lifetime < now - entry.lastAccess

/-- The sessions of a class leave the registry, and their calculators lose their variables. -/
def release (registry : Registry) (leaves : SessionEntry → Bool) : Registry :=
  let left := registry.entries.filter leaves
  { registry with
    entries := registry.entries.filter fun entry => !leaves entry
    calculators := registry.calculators.map fun (id, calculator) =>
      (id, if left.any (·.id == id) then calculator.close else calculator) }

/-- The expired sessions leave the registry. -/
def purge (registry : Registry) (now : Int) : Registry :=
  registry.release (registry.isExpired now)

/-- A new session. A request that is refused has used up an identifier all the same. -/
def create (registry : Registry) (now : Int) (settings : Settings) :
    Except RegistryError String × Registry :=
  let purged := registry.purge now
  let number := registry.issued + 1
  let id := sessionId number
  if registry.capacity ≤ purged.size then (.error .full, { purged with issued := number })
  else
    (.ok id,
      { purged with
        issued := number
        entries := purged.entries ++ [⟨id, now⟩]
        calculators := purged.calculators ++ [(id, { settings := settings })] })

def touch (registry : Registry) (now : Int) (id : String) : Registry :=
  { registry with
    entries := registry.entries.map fun entry =>
      if entry.id == id then { entry with lastAccess := now } else entry }

/-- The calculator of a session that has not expired, which is thereby accessed. -/
def get (registry : Registry) (now : Int) (id : String) :
    Except RegistryError Calculator × Registry :=
  let purged := registry.purge now
  if purged.holds id then
    match purged.calculator? id with
    | some calculator => (.ok calculator, purged.touch now id)
    | none => (.error .notFound, purged)
  else (.error .notFound, purged)

/-- The session leaves the registry, if it is there. -/
def delete (registry : Registry) (id : String) : Except RegistryError Unit × Registry :=
  if registry.holds id then (.ok (), registry.release (·.id == id))
  else (.error .notFound, registry)

def clear (registry : Registry) : Registry :=
  registry.release fun _ => true

/-- The registry with the calculator under an identifier replaced. -/
def store (registry : Registry) (id : String) (calculator : Calculator) : Registry :=
  { registry with
    calculators := registry.calculators.map fun (key, other) =>
      (key, if key == id then calculator else other) }

end Registry

end Reckoner
