/-!
# Durations

Spans of time as seconds and nanoseconds, up to the largest that 64-bit seconds
can hold.
-/

namespace ChainFollower

/-- A span of time: whole seconds, and nanoseconds below one second. -/
structure Duration where
  seconds : Nat
  nanos : Nat
  seconds_lt : seconds < 18446744073709551616
  nanos_lt : nanos < 1000000000

namespace Duration

/-- The longest span. -/
def longest : Duration := ⟨18446744073709551615, 999999999, by decide, by decide⟩

/-- The number of nanoseconds in the span. -/
def toNanos (span : Duration) : Nat :=
  span.seconds * 1000000000 + span.nanos

/-- The span of a number of nanoseconds, or the longest if it is longer still. -/
def ofNanos (nanos : Nat) : Duration :=
  if fits : nanos / 1000000000 < 18446744073709551616 then
    ⟨nanos / 1000000000, nanos % 1000000000, fits, Nat.mod_lt _ (by decide)⟩
  else longest

/-- The span of a number of milliseconds. -/
def ofMillis (millis : Nat) : Duration :=
  ofNanos (millis * 1000000)

/-- The span of a number of seconds. -/
def ofSeconds (seconds : Nat) : Duration :=
  ofNanos (seconds * 1000000000)

/-- The span `factor` times as long, or the longest.  The nanoseconds carry into
the seconds. -/
def scale (span : Duration) (factor : Nat) : Duration :=
  let nanos := span.nanos * factor
  let seconds := span.seconds * factor + nanos / 1000000000
  if fits : seconds < 18446744073709551616 then
    ⟨seconds, nanos % 1000000000, fits, Nat.mod_lt _ (by decide)⟩
  else longest

/-- Whether a span is shorter than another. -/
def shorter (left right : Duration) : Bool :=
  left.seconds < right.seconds ||
    (left.seconds == right.seconds && left.nanos < right.nanos)

/-- The shorter of two spans. -/
def least (left right : Duration) : Duration :=
  if right.shorter left then right else left

end Duration

end ChainFollower
