/-!
# Points in time

Rows carry the time at which they were written, in UTC, to the nanosecond.  A
timestamp counts seconds from the start of 1970, and nanoseconds within the second.  A
leap second is the continuation of the second before it: there the nanoseconds run up
to two thousand million.
-/

namespace FundsTransfer

/-- A point in time in UTC. -/
structure Timestamp where
  /-- The seconds since the start of 1970. -/
  second : Int
  /-- The nanoseconds since the start of the second, a thousand million or more in a leap second. -/
  nanosecond : Nat
  /-- A second and its leap second are two thousand million nanoseconds long. -/
  nanosecond_lt : nanosecond < 2000000000
deriving DecidableEq

namespace Timestamp

/-- The start of 1970. -/
def epoch : Timestamp := ⟨0, 0, by decide⟩

instance : Inhabited Timestamp := ⟨epoch⟩

/-- The time a number of milliseconds after the start of 1970. -/
def ofMilliseconds (n : Nat) : Timestamp := ⟨n / 1000, n % 1000 * 1000000, by omega⟩

end Timestamp

end FundsTransfer
