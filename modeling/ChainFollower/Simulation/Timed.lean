import ChainFollower.Cancellation
import ChainFollower.Sync.Watchdog

/-!
# Simulated time

A clock that only moves when everything waits, and then straight to the next
event: an external cancellation, or a watchdog that acts.  Tokens are the children
of one parent token.
-/

namespace ChainFollower.Simulation

open Sync (Watchdog TipCheck)

/-- A token: the parent, or one of its children. -/
inductive Target where
  | parent
  | child (place : Nat)
  deriving DecidableEq, Repr

/-- A cancellation from outside, at a time. -/
structure Timer where
  time : Nat
  target : Target
  deriving DecidableEq, Repr

/-- A watchdog and the child token it belongs to. -/
structure Guard where
  token : Nat
  watchdog : Watchdog

/-- A state on a clock, with the tokens and everything that waits for a time. -/
structure Timed (σ : Type) where
  /-- The time in milliseconds. -/
  now : Nat
  parent : Bool
  /-- Which of the child tokens were cancelled themselves. -/
  children : List Bool
  timers : List Timer
  guards : List Guard
  inner : σ

namespace Timed

variable {σ : Type}

/-- A state at time zero, with one token. -/
def start (inner : σ) : Timed σ := ⟨0, false, [false], [], [], inner⟩

/-- The state of a child token. -/
def token (timed : Timed σ) (place : Nat) : Cancellation :=
  ⟨timed.children.getD place false, some timed.parent⟩

/-- Whether a token is cancelled. -/
def cancelled (timed : Timed σ) : Target → Bool
  | .parent => timed.parent
  | .child place => (timed.token place).isCancelled

/-- Cancels a token. -/
def cancel (timed : Timed σ) : Target → Timed σ
  | .parent => { timed with parent := true }
  | .child place => { timed with children := timed.children.set place true }

/-- Adds a token that is not cancelled itself. -/
def addChild (timed : Timed σ) : Timed σ :=
  { timed with children := timed.children ++ [false] }

/-- Adds watchdogs for a token. -/
def guard (timed : Timed σ) (token : Nat) (watchdogs : List Watchdog) : Timed σ :=
  { timed with guards := timed.guards ++ watchdogs.map (⟨token, ·⟩) }

/-- Has a token cancelled after so many milliseconds. -/
def cancelAfter (timed : Timed σ) (millis : Nat) (target : Target) : Timed σ :=
  { timed with timers := timed.timers ++ [⟨timed.now + millis, target⟩] }

/-- Whether a guard acts now. -/
def acts (timed : Timed σ) (guard : Guard) : Bool :=
  guard.watchdog.acts timed.now (timed.cancelled (.child guard.token))

/-- The time of the next event, if there is one. -/
def nextEvent? (timed : Timed σ) : Option Nat :=
  (timed.timers.map Timer.time ++ timed.guards.map fun guard =>
    if timed.acts guard then timed.now else guard.watchdog.wake).min?

/-- Carries out one event that is due: a timer, or else a watchdog. -/
def event (atTip : Int64 → σ → TipCheck × σ) (timed : Timed σ) : Timed σ :=
  match timed.timers.findIdx? fun timer => timer.time ≤ timed.now with
  | some place =>
      match timed.timers[place]? with
      | some timer => { timed with timers := timed.timers.eraseIdx place }.cancel timer.target
      | none => timed
  | none =>
      match timed.guards.findIdx? timed.acts with
      | none => timed
      | some place =>
          match timed.guards[place]? with
          | none => timed
          | some guard =>
              let target := Target.child guard.token
              let (action, inner) := guard.watchdog.act atTip timed.now
                (timed.cancelled target) timed.inner
              let timed := { timed with inner }
              match action with
              | .returns => { timed with guards := timed.guards.eraseIdx place }
              | .cancels => { timed with guards := timed.guards.eraseIdx place }.cancel target
              | .continues watchdog =>
                  { timed with guards := timed.guards.set place { guard with watchdog } }

/-- Moves on from event to event until `done`, or until the clock reaches
`deadline`, or until nothing waits any more.  `fuel` bounds the events. -/
def advance (atTip : Int64 → σ → TipCheck × σ) (deadline : Option Nat) (done : Timed σ → Bool) :
    (fuel : Nat) → Timed σ → Timed σ
  | 0, timed => timed
  | fuel + 1, timed =>
      if done timed then timed
      else
        match timed.nextEvent?, deadline with
        | none, none => timed
        | none, some limit => { timed with now := max timed.now limit }
        | some time, some limit =>
            if limit ≤ time then { timed with now := max timed.now limit }
            else advance atTip deadline done fuel
              (event atTip { timed with now := max timed.now time })
        | some time, none =>
            advance atTip deadline done fuel (event atTip { timed with now := max timed.now time })

/-- Waits for a span of time, or until a token is cancelled. -/
def rest (atTip : Int64 → σ → TipCheck × σ) (fuel : Nat) (target : Target) (span : Duration)
    (timed : Timed σ) : Timed σ :=
  timed.advance atTip (some (timed.now + (span.toNanos + 999999) / 1000000))
    (fun timed => timed.cancelled target) fuel

end Timed

end ChainFollower.Simulation
