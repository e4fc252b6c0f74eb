import Mathlib.Data.Int.Init

/-!
# Instants and durations

`chrono::DateTime<Utc>` and `chrono::Duration` as nanosecond counts. Only the operations
the services use are here: whole seconds as a duration, and `num_seconds`, which
truncates towards zero.
-/

namespace Lib.Chrono

/-- Nanoseconds since the Unix epoch. -/
abbrev DateTime := Int

/-- A signed number of nanoseconds. -/
abbrev Duration := Int

def nanosPerSecond : Int := 1000000000

/-- `Duration::seconds`. -/
def seconds (n : Int) : Duration := n * nanosPerSecond

/-- `Duration::num_seconds`. -/
def numSeconds (d : Duration) : Int := d.tdiv nanosPerSecond

end Lib.Chrono
