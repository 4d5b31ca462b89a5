import ChainFollower.Duration

/-!
# Backoff between attempts

The wait before each retry of a request: it doubles from retry to retry up to a
longest wait, until the retries are spent.
-/

namespace ChainFollower.Remote

/-- A schedule of waits between the attempts of a request. -/
structure Backoff where
  initial : Duration
  longest : Duration
  retries : UInt32

namespace Backoff

/-- A quarter of a second at first, ten seconds at most, five retries. -/
def standard : Backoff :=
  ⟨.ofMillis 250, .ofSeconds 10, 5⟩

/-- The doubling after so many earlier retries.  It stops at the largest 32-bit
word, which is reached after 32 retries. -/
def factor (earlier : Nat) : Nat :=
  if earlier < 32 then Nat.pow 2 earlier else 4294967295

/-- The wait before a retry, counted from one; nothing once the retries are
spent. -/
def delay? (backoff : Backoff) (retry : UInt32) : Option Duration :=
  if retry = 0 ∨ backoff.retries < retry then none
  else some ((backoff.initial.scale (factor (retry.toNat - 1))).least backoff.longest)

end Backoff

end ChainFollower.Remote
