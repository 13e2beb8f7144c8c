import Reckoner.Binary64

/-!
# Spans of time

Moments and spans of time are whole numbers of microseconds. A span is kept as days and a part of a
day, and its days are bounded. A number of seconds that is given as a double is split first: its
whole seconds count exactly, and the microseconds of the rest are rounded, a half to the even
neighbour.
-/

set_option autoImplicit false

namespace Reckoner

open Binary64

/-- The reasons why a number makes no span of time. -/
inductive SpanError where
  | infinite
  | notANumber
  | tooManyDays (days : Int)
  | uncountableDays
  deriving Repr, DecidableEq

namespace TimeSpan

/-- The microseconds of a second. -/
def second : Int := 1000000

def minute : Int := 60 * second

/-- The microseconds of a day. -/
def day : Int := 1440 * minute

/-- The most days of a span, in either direction. -/
def maxDays : Int := 999999999

/-- The bound that a number of days has to stay below to be counted at all. -/
def countBound : Int := 0x80000000

/-- The span of a number of microseconds, if its days are within the bounds. -/
def ofMicroseconds (count : Int) : Except SpanError Int :=
  let days := count.fdiv day
  if days < -countBound || countBound ≤ days then .error .uncountableDays
  else if days < -maxDays || maxDays < days then .error (.tooManyDays days)
  else .ok count

/-- The span of a whole number of minutes. -/
def ofMinutes (count : Int) : Except SpanError Int :=
  ofMicroseconds (count * minute)

/-- The span of a whole number of seconds. -/
def ofSeconds (count : Int) : Except SpanError Int :=
  ofMicroseconds (count * second)

def ofFraction (seconds : Float) : Except SpanError Int :=
  if seconds.isNaN then .error .notANumber
  else if seconds.isInf then .error .infinite
  else
    let whole := truncate seconds
    let rest := (seconds - ofInt whole) * ofInt second
    ofMicroseconds (whole * second + roundHalfEven (value rest))

end TimeSpan

/-- What is reported of a number that makes no span of time. -/
def SpanError.message : SpanError → String
  | infinite => "cannot convert float infinity to integer"
  | notANumber => "cannot convert float NaN to integer"
  | tooManyDays days =>
    "days=" ++ toString days ++ "; must have magnitude <= " ++ toString TimeSpan.maxDays
  | uncountableDays => "the number of days is no signed number of 32 bits"

end Reckoner
