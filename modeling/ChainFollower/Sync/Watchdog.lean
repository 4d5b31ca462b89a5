import ChainFollower.Config.Basic

/-!
# Watchdogs

A watchdog runs beside a follower and cancels its token when an end condition is
met: when the newest block is close enough to the present, or when a time is
over.  Times are milliseconds on the clock of the run.
-/

namespace ChainFollower.Sync

/-- The answer to the question whether the store is at the tip, and how long it
takes. -/
structure TipCheck where
  answer : Except SyncError Bool
  millis : Nat

/-- A watchdog, by what it is waiting for. -/
inductive Watchdog where
  /-- Waits for the next tick, to ask whether the newest block is at most `delay`
  seconds old. -/
  | polling (delay : Int64) (interval : Nat) (due : Nat)
  /-- Waits for an answer that comes at the time `finish`. -/
  | asking (delay : Int64) (interval : Nat) (due : Nat) (finish : Nat)
      (answer : Except SyncError Bool)
  /-- Waits for the time to be over. -/
  | timing (deadline : Nat)

namespace Watchdog

/-- How late a tick may be and still count as on time. -/
def tolerance : Nat := 5

/-- The tick after one that was due at `due` and came at `now`: an interval after
the time it was due, or after the time it came if that was late. -/
def following (interval due now : Nat) : Nat :=
  if due + tolerance < now then now + interval else due + interval

/-- A watchdog that polls every `interval`, first after one interval. -/
def tip (delay : Int64) (interval now : Nat) : Watchdog :=
  .polling delay interval (now + interval)

/-- A watchdog that stops the run after a time. -/
def duration (span now : Nat) : Watchdog :=
  .timing (now + span)

/-- The watchdogs for end conditions, which begin at `now`.  Ticks are at least a
second apart. -/
def ofConditions (conditions : EndConditions) (now : Nat) : List Watchdog :=
  (conditions.tipDelaySeconds.map fun delay =>
      tip delay (max conditions.tipPollIntervalSeconds.toNat 1 * 1000) now).toList ++
    (conditions.durationSeconds.map fun span => duration (span.toNat * 1000) now).toList

/-- The time at which a watchdog that is not cancelled acts next. -/
def wake : Watchdog → Nat
  | .polling _ _ due => due
  | .asking _ _ _ finish _ => finish
  | .timing deadline => deadline

/-- Whether a watchdog acts at a time.  Cancellation ends a watchdog at once,
except that it does not interrupt a question. -/
def acts (now : Nat) (cancelled : Bool) (watchdog : Watchdog) : Bool :=
  watchdog.wake ≤ now || (cancelled && !(watchdog matches .asking ..))

/-- What a watchdog does. -/
inductive Action where
  /-- It is over. -/
  | returns
  /-- It cancels the token and is over. -/
  | cancels
  /-- It goes on. -/
  | continues (watchdog : Watchdog)

/-- Acts at a time.  A positive answer cancels; a negative one and a failure are
followed by the next tick. -/
def act (atTip : Int64 → σ → TipCheck × σ) (now : Nat) (cancelled : Bool) (world : σ) :
    Watchdog → Action × σ
  | .polling delay interval due =>
      if cancelled then (.returns, world)
      else
        let (check, world) := atTip delay world
        (.continues (.asking delay interval (following interval due now)
          (now + check.millis) check.answer), world)
  | .asking delay interval due _ answer =>
      match answer with
      | .ok true => (.cancels, world)
      | _ => (.continues (.polling delay interval due), world)
  | .timing _ => (if cancelled then .returns else .cancels, world)

end Watchdog

end ChainFollower.Sync
