import ChainFollower.Proofs.Simulation.Events
import Mathlib.Data.ENat.Lattice

/-!
# Watches

A watch is the watchdogs of one run, with the store's answers to their questions, and with a
cancellation from outside.  The token is cancelled at the first of what ends the run, whatever the
order of what happens at one instant, and the store is asked at every tick until then.
-/

namespace ChainFollower.Simulation

open Sync (Watchdog TipCheck)
open Timed (Happens Runs Ticks)

/-- The watchdogs of one token and what they meet with.  Times are milliseconds. -/
structure Watch where
  delay : Int64
  /-- The time from poll to poll. -/
  interval : Nat
  patient : 1000 ≤ interval
  /-- The time after which the run is over, if there is one. -/
  span : Option Nat
  /-- The answer to each poll.  It takes no time. -/
  answers : Nat → Except SyncError Bool
  /-- The time of a cancellation from outside, if there is one. -/
  outside : Option Nat
  /-- Whether it is the parent that is cancelled from outside. -/
  viaParent : Bool

namespace Watch

/-- The store at which the number of polls is counted. -/
def atTip (watch : Watch) (_ : Int64) (polls : Nat) : TipCheck × Nat :=
  (⟨watch.answers polls, 0⟩, polls + 1)

def watchdogs (watch : Watch) : List Watchdog :=
  .tip watch.delay watch.interval 0 :: watch.span.toList.map (Watchdog.duration · 0)

/-- The token that the watchdogs cancel. -/
def token : Target := .child 0

/-- The token that is cancelled from outside. -/
def target (watch : Watch) : Target :=
  if watch.viaParent then .parent else token

/-- The watchdogs at the start, and the cancellation from outside. -/
def begun (watch : Watch) : Timed Nat :=
  let timed := (Timed.start 0).guard 0 watch.watchdogs
  match watch.outside with
  | none => timed
  | some time => timed.cancelAfter time watch.target

/-- What ends the run at a time: a cancellation from outside, the end of its span, or a positive
answer. -/
def Cause (watch : Watch) (time : Nat) : Prop :=
  watch.outside = some time ∨ watch.span = some time ∨
    ∃ place, watch.answers place = .ok true ∧ time = watch.interval * (place + 1)

/-- The first time at which something ends the run. -/
noncomputable def moment (watch : Watch) : ℕ∞ :=
  ⨅ (time : Nat) (_ : watch.Cause time), (time : ℕ∞)

theorem interval_pos (watch : Watch) : 0 < watch.interval :=
  Nat.lt_of_lt_of_le (by decide) watch.patient

variable {watch : Watch}

theorem moment_le {time : Nat} (cause : watch.Cause time) : watch.moment ≤ time :=
  iInf₂_le time cause

theorem le_moment {now : Nat} (before : ∀ time, watch.Cause time → now ≤ time) :
    (now : ℕ∞) ≤ watch.moment :=
  le_iInf₂ fun time cause => Nat.cast_le.2 (before time cause)

/-- The moment is the first cause. -/
theorem moment_eq {first : Nat} (cause : watch.Cause first)
    (before : ∀ time, watch.Cause time → first ≤ time) : watch.moment = first :=
  le_antisymm (moment_le cause) (le_moment before)

/-- The watch of a run with end conditions. -/
def ofConditions (conditions : EndConditions) (delay : Int64)
    (answers : Nat → Except SyncError Bool) (outside : Option Nat) (viaParent : Bool) : Watch where
  delay
  interval := max conditions.tipPollIntervalSeconds.toNat 1 * 1000
  patient := by omega
  span := conditions.durationSeconds.map fun span => span.toNat * 1000
  answers
  outside
  viaParent

/-- It has the watchdogs that the run begins with. -/
theorem watchdogs_ofConditions {conditions : EndConditions} {delay : Int64}
    (tip : conditions.tipDelaySeconds = some delay) (answers : Nat → Except SyncError Bool)
    (outside : Option Nat) (viaParent : Bool) :
    (ofConditions conditions delay answers outside viaParent).watchdogs =
      Watchdog.ofConditions conditions 0 := by
  unfold Watchdog.ofConditions
  rw [tip]
  cases span : conditions.durationSeconds <;> simp [watchdogs, ofConditions, span]

/-! ## Before the moment -/

/-- The watchdog of the tip after a number of polls, none of which that was answered yet was
answered with yes. -/
inductive Tip (watch : Watch) (now : Nat) : Nat → Watchdog → Prop
  | waits (polls : Nat) (earlier : watch.interval * polls ≤ now)
      (later : now ≤ watch.interval * (polls + 1))
      (negative : ∀ place < polls, watch.answers place ≠ .ok true) :
      Tip watch now polls (.polling watch.delay watch.interval (watch.interval * (polls + 1)))
  | asks (polls : Nat) (onTime : now = watch.interval * (polls + 1))
      (negative : ∀ place < polls, watch.answers place ≠ .ok true) :
      Tip watch now (polls + 1) (.asking watch.delay watch.interval (watch.interval * (polls + 2))
        now (watch.answers polls))

/-- A watch before anything has ended the run. -/
structure Pending (watch : Watch) (timed : Timed Nat) : Prop where
  parent : timed.parent = false
  children : timed.children = [false]
  timers : timed.timers = watch.outside.toList.map (⟨·, watch.target⟩)
  guards : ∃ tip, watch.Tip timed.now timed.inner tip ∧
    timed.guards = ⟨0, tip⟩ :: watch.span.toList.map (⟨0, .timing ·⟩)
  early : ∀ time, watch.outside = some time ∨ watch.span = some time → timed.now ≤ time

/-- A watch after something has ended the run at a time. -/
structure Over (watch : Watch) (since : Nat) (timed : Timed Nat) : Prop where
  cancelled : timed.cancelled token = true
  cause : watch.Cause since
  first : ∀ time, watch.Cause time → since ≤ time
  later : since ≤ timed.now
  settled : timed.guards = [] ∨ timed.now = since
  awake : ∀ guard ∈ timed.guards, guard.token = 0 ∧ guard.watchdog.acts timed.now true = true
  polled : watch.interval * timed.inner ≤ since
  next : since ≤ watch.interval * (timed.inner + 1)
  last : watch.outside = some since ∨ watch.span = some since ∨
    since = watch.interval * timed.inner

theorem Tip.polled {now polls : Nat} {tip : Watchdog} (at? : watch.Tip now polls tip) :
    watch.interval * polls ≤ now ∧ now ≤ watch.interval * (polls + 1) := by
  cases at? with
  | waits polls earlier later => exact ⟨earlier, later⟩
  | asks polls onTime =>
      rw [onTime]
      exact ⟨Nat.le_refl _, Nat.mul_le_mul_left _ (Nat.le_succ _)⟩

/-- No positive answer is due before. -/
theorem Tip.early {now polls place : Nat} {tip : Watchdog} (at? : watch.Tip now polls tip)
    (positive : watch.answers place = .ok true) : now ≤ watch.interval * (place + 1) := by
  have later {polls : Nat} (negative : ∀ place < polls, watch.answers place ≠ .ok true) :
      watch.interval * (polls + 1) ≤ watch.interval * (place + 1) := by
    refine Nat.mul_le_mul_left _ (Nat.succ_le_succ (Nat.le_of_not_lt fun earlier => ?_))
    exact negative place earlier positive
  cases at? with
  | waits polls _ before negative => exact before.trans (later negative)
  | asks polls onTime negative => exact onTime.le.trans (later negative)

/-- It acts at once when the token is cancelled. -/
theorem Tip.acts {now polls : Nat} {tip : Watchdog} (at? : watch.Tip now polls tip) :
    tip.acts now true = true := by
  cases at? with
  | waits => exact Bool.or_true _
  | asks => exact Bool.or_eq_true_iff.2 (Or.inl (decide_eq_true (Nat.le_refl _)))

/-- The tip watchdog waits for its tick while time passes. -/
theorem Tip.passes {now polls time : Nat} {tip : Watchdog} (at? : watch.Tip now polls tip)
    (later : now ≤ time) (before : time ≤ if tip.acts now false then now else tip.wake) :
    watch.Tip time polls tip := by
  cases at? with
  | waits polls earlier onTime negative =>
      refine .waits polls (earlier.trans later) ?_ negative
      split at before
      next => exact before.trans onTime
      next => exact before
  | asks polls onTime negative =>
      have same : time = now := by
        refine Nat.le_antisymm ?_ later
        split at before <;> exact before
      rw [same]
      exact .asks polls onTime negative

/-- The tip watchdog asks at its tick, cancels at a positive answer, and waits for the next tick
after any other. -/
theorem Tip.act {now polls : Nat} {tip : Watchdog} (at? : watch.Tip now polls tip)
    (due : tip.acts now false = true) :
    (∃ following after, tip.act watch.atTip now false polls = (.continues following, after) ∧
      watch.Tip now after following ∧
      (after = polls ∨ after = polls + 1 ∧ now = watch.interval * after)) ∨
    tip.act watch.atTip now false polls = (.cancels, polls) ∧ watch.Cause now ∧
      now = watch.interval * polls := by
  cases at? with
  | waits polls earlier later negative =>
      have onTime : now = watch.interval * (polls + 1) := by
        refine Nat.le_antisymm later (of_decide_eq_true ?_)
        exact (Bool.or_eq_true_iff.1 due).resolve_right nofun
      refine Or.inl ⟨_, _, rfl, ?_, Or.inr ⟨rfl, onTime⟩⟩
      have following : Watchdog.following watch.interval (watch.interval * (polls + 1)) now =
          watch.interval * (polls + 2) := by
        rw [Watchdog.following, onTime, if_neg (Nat.not_lt.2 (Nat.le_add_right _ _))]
        exact (Nat.mul_succ _ _).symm
      rw [following]
      exact .asks polls onTime negative
  | asks polls onTime negative =>
      by_cases positive : watch.answers polls = .ok true
      · refine Or.inr ⟨?_, Or.inr (Or.inr ⟨polls, positive, onTime⟩), onTime⟩
        rw [positive]
        rfl
      · have waits : watch.Tip now (polls + 1)
            (.polling watch.delay watch.interval (watch.interval * (polls + 2))) := by
          refine .waits (polls + 1) onTime.ge ?_ fun place earlier => ?_
          · rw [onTime]
            exact Nat.mul_le_mul_left _ (Nat.le_succ _)
          · rcases Nat.lt_or_eq_of_le (Nat.le_of_lt_succ earlier) with before | rfl
            · exact negative place before
            · exact positive
        refine Or.inl ⟨_, _, ?_, waits, Or.inl rfl⟩
        cases answer : watch.answers polls with
        | error error => rfl
        | ok yes =>
            cases yes with
            | true => exact absurd answer positive
            | false => rfl

theorem Tip.ticks {now polls : Nat} {tip : Watchdog} (at? : watch.Tip now polls tip) :
    Ticks tip := by
  cases at? with
  | waits => exact watch.interval_pos
  | asks => exact watch.interval_pos

theorem pending_begun (watch : Watch) : watch.Pending watch.begun := by
  have tip : watch.Tip 0 0 (.tip watch.delay watch.interval 0) :=
    .waits 0 (Nat.le_refl _) (Nat.zero_le _) nofun
  have guards : (⟨0, .tip watch.delay watch.interval 0⟩ ::
      (watch.span.toList.map (Watchdog.duration · 0)).map (⟨0, ·⟩) : List Guard) =
        ⟨0, .tip watch.delay watch.interval 0⟩ :: watch.span.toList.map (⟨0, .timing ·⟩) := by
    simp [Watchdog.duration]
  unfold begun
  cases outside : watch.outside with
  | none => exact ⟨rfl, rfl, by rw [outside]; rfl, ⟨_, tip, guards⟩, fun _ _ => Nat.zero_le _⟩
  | some time =>
      refine ⟨rfl, rfl, ?_, ⟨_, tip, guards⟩, fun _ _ => Nat.zero_le _⟩
      simp [outside, Timed.cancelAfter, Timed.guard, Timed.start]

/-- Until the moment nothing has ended the run. -/
theorem Pending.first {timed : Timed Nat} (pending : watch.Pending timed) :
    ∀ time, watch.Cause time → timed.now ≤ time := by
  obtain ⟨tip, at?, -⟩ := pending.guards
  rintro time (outside | span | ⟨place, positive, rfl⟩)
  · exact pending.early time (Or.inl outside)
  · exact pending.early time (Or.inr span)
  · exact at?.early positive

theorem Pending.free {timed : Timed Nat} (pending : watch.Pending timed) :
    timed.cancelled token = false := by
  simp [token, Timed.cancelled, Timed.token, Cancellation.isCancelled, pending.parent,
    pending.children]

/-- What ends the run ends it at once. -/
theorem Pending.ends {timed next : Timed Nat} (pending : watch.Pending timed)
    (cancelled : next.cancelled token = true) (now : next.now = timed.now)
    (inner : next.inner = timed.inner) (guards : ∀ guard ∈ next.guards, guard ∈ timed.guards)
    (cause : watch.Cause timed.now)
    (last : watch.outside = some timed.now ∨ watch.span = some timed.now ∨
      timed.now = watch.interval * timed.inner) : watch.Over timed.now next := by
  obtain ⟨tip, at?, all⟩ := pending.guards
  refine ⟨cancelled, cause, pending.first, now.ge, Or.inr now, fun guard member => ?_,
    inner ▸ at?.polled.1, inner ▸ at?.polled.2, inner ▸ last⟩
  rw [now]
  rcases List.mem_cons.1 (all ▸ guards guard member) with rfl | timing
  · exact ⟨rfl, at?.acts⟩
  · obtain ⟨time, -, rfl⟩ := List.mem_map.1 timing
    exact ⟨rfl, Bool.or_true _⟩

section

variable {timed next : Timed Nat}

theorem Pending.passes (pending : watch.Pending timed) {time : Nat} (later : timed.now ≤ time)
    (timers : ∀ timer ∈ timed.timers, time ≤ max timed.now timer.time)
    (guards : ∀ guard ∈ timed.guards,
      time ≤ if timed.acts guard then timed.now else guard.watchdog.wake) :
    watch.Pending { timed with now := time } := by
  obtain ⟨tip, at?, all⟩ := pending.guards
  refine ⟨pending.parent, pending.children, pending.timers, ⟨tip, ?_, all⟩, ?_⟩
  · have before := guards ⟨0, tip⟩ (all ▸ List.mem_cons_self)
    rw [Timed.acts_eq ⟨0, tip⟩ pending.free] at before
    exact at?.passes later before
  · rintro final (outside | span)
    · have bound := timers ⟨final, watch.target⟩ (by simp [pending.timers, outside])
      exact bound.trans (Nat.max_le.2 ⟨pending.early final (Or.inl outside), Nat.le_refl _⟩)
    · have bound := guards ⟨0, .timing final⟩ (by simp [all, span])
      split at bound
      next => exact bound.trans (pending.early final (Or.inr span))
      next => exact bound

/-- A cancellation from outside ends the run. -/
theorem Pending.cancels (pending : watch.Pending timed) {place : Nat} {timer : Timer}
    (found : timed.timers[place]? = some timer) (due : timer.time ≤ timed.now) :
    watch.Over timed.now
      ({ timed with timers := timed.timers.eraseIdx place }.cancel timer.target) := by
  have member := List.mem_of_getElem? found
  rw [pending.timers] at member
  obtain ⟨time, given, rfl⟩ := List.mem_map.1 member
  have outside : watch.outside = some timed.now := by
    rw [Option.mem_toList.1 given,
      Nat.le_antisymm (pending.early time (Or.inl (Option.mem_toList.1 given))) due]
  refine pending.ends ?_ (Timed.now_cancel ..) (Timed.inner_cancel ..)
    (fun guard member => by simpa using member) (Or.inl outside) (Or.inl outside)
  cases viaParent : watch.viaParent with
  | true =>
      simp only [target, viaParent, if_true]
      exact Timed.cancelled_cancel_parent _ _
  | false =>
      simp only [target, viaParent, Bool.false_eq_true, if_false]
      exact Timed.cancelled_cancel_child (by simp [pending.children])

/-- A watchdog that cancels the token ends the run. -/
theorem Pending.settles (pending : watch.Pending timed) {place : Nat} {guard : Guard}
    (own : guard.token = 0) (cause : watch.Cause timed.now)
    (last : watch.outside = some timed.now ∨ watch.span = some timed.now ∨
      timed.now = watch.interval * timed.inner) :
    watch.Over timed.now (timed.settle place guard .cancels) := by
  refine pending.ends ?_ rfl rfl (fun other member => List.mem_of_mem_eraseIdx member) cause last
  rw [Timed.settle, own]
  exact Timed.cancelled_cancel_child (by simp [pending.children])

/-- Whatever happens before the moment is no end, or ends the run now. -/
theorem Pending.step (pending : watch.Pending timed) (happens : Happens watch.atTip timed next) :
    watch.Pending next ∧ (next.inner = timed.inner ∨
      next.inner = timed.inner + 1 ∧ timed.now = watch.interval * next.inner) ∨
    watch.Over timed.now next ∧ next.inner = timed.inner ∧ next.now = timed.now := by
  cases happens with
  | passes time later timers guards => exact Or.inl ⟨pending.passes later timers guards, Or.inl rfl⟩
  | cancels place timer found due =>
      exact Or.inr ⟨pending.cancels found due, Timed.inner_cancel .., Timed.now_cancel ..⟩
  | acts place guard found due =>
      obtain ⟨tip, at?, all⟩ := pending.guards
      rw [all] at found
      cases place with
      | zero =>
          cases found
          rw [Timed.acts_eq ⟨0, tip⟩ pending.free] at due
          obtain ⟨following, after, acted, goesOn, poll⟩ | ⟨acted, cause, onTime⟩ := at?.act due
          · rw [Timed.turn_eq pending.free acted]
            refine Or.inl ⟨⟨pending.parent, pending.children, pending.timers,
              ⟨following, goesOn, ?_⟩, pending.early⟩, poll⟩
            simp [Timed.settle, all]
          · rw [Timed.turn_eq pending.free acted]
            exact Or.inr ⟨pending.settles rfl cause (Or.inr (Or.inr onTime)), rfl, rfl⟩
      | succ place =>
          obtain ⟨time, given, rfl⟩ := List.mem_map.1 (List.mem_of_getElem? found)
          have span : watch.span = some timed.now := by
            rw [Timed.acts_eq ⟨0, .timing time⟩ pending.free] at due
            have elapsed := (Bool.or_eq_true_iff.1 due).resolve_right nofun
            rw [Option.mem_toList.1 given, Nat.le_antisymm
              (pending.early time (Or.inr (Option.mem_toList.1 given))) (of_decide_eq_true elapsed)]
          rw [Timed.turn_eq pending.free rfl]
          exact Or.inr ⟨pending.settles rfl (Or.inr (Or.inl span)) (Or.inr (Or.inl span)), rfl, rfl⟩

theorem Over.kept {since : Nat} (ended : watch.Over since timed)
    (cancelled : next.cancelled token = true) (later : timed.now ≤ next.now)
    (inner : next.inner = timed.inner) (settled : next.guards = [] ∨ next.now = since)
    (awake : ∀ guard ∈ next.guards, guard.token = 0 ∧ guard.watchdog.acts next.now true = true) :
    watch.Over since next ∧ next.inner = timed.inner :=
  ⟨⟨cancelled, ended.cause, ended.first, ended.later.trans later, settled, awake,
    inner ▸ ended.polled, inner ▸ ended.next, inner ▸ ended.last⟩, inner⟩

theorem Over.stopped {since : Nat} (ended : watch.Over since timed) {guard : Guard}
    (member : guard ∈ timed.guards) : timed.cancelled (.child guard.token) = true := by
  rw [(ended.awake guard member).1]
  exact ended.cancelled

/-- After the end the watchdogs return, and the store is not asked again. -/
theorem Over.step {since : Nat} (ended : watch.Over since timed)
    (happens : Happens watch.atTip timed next) :
    watch.Over since next ∧ next.inner = timed.inner := by
  cases happens with
  | passes time later timers guards =>
      -- While a watchdog still has to return, no time passes.
      have settled : timed.guards = [] ∨ time = timed.now := by
        refine or_iff_not_imp_left.2 fun left => Nat.le_antisymm ?_ later
        obtain ⟨guard, member⟩ := List.exists_mem_of_ne_nil _ left
        have bound := guards guard member
        rwa [Timed.acts_eq guard (ended.stopped member), (ended.awake guard member).2,
          if_pos rfl] at bound
      rcases settled with none | rfl
      · refine ended.kept ended.cancelled later rfl (Or.inl none) fun guard member => ?_
        nomatch (none ▸ member : guard ∈ [])
      · exact ⟨ended, rfl⟩
  | cancels place timer found due =>
      refine ended.kept ?_ ?_ (Timed.inner_cancel ..) ?_ ?_
      · apply Timed.cancelled_cancel
        exact ended.cancelled
      · rw [Timed.now_cancel]
      · simpa using ended.settled
      · simpa using ended.awake
  | acts place guard found due =>
      have member := List.mem_of_getElem? found
      have now : timed.now = since := ended.settled.resolve_left (List.ne_nil_of_mem member)
      obtain ⟨action, acted, goesOn⟩ :=
        Timed.act_of_cancelled watch.atTip timed.now timed.inner guard.watchdog
      rw [Timed.turn_eq (ended.stopped member) acted]
      have fewer : ∀ other ∈ timed.guards.eraseIdx place,
          other.token = 0 ∧ other.watchdog.acts timed.now true = true :=
        fun other member => ended.awake other (List.mem_of_mem_eraseIdx member)
      cases action with
      | returns => exact ended.kept ended.cancelled (Nat.le_refl _) rfl (Or.inr now) fewer
      | cancels =>
          refine ended.kept ?_ (Nat.le_refl _) rfl (Or.inr now) fewer
          exact Timed.cancelled_cancel ended.cancelled (.child guard.token)
      | continues following =>
          refine ended.kept ended.cancelled (Nat.le_refl _) rfl (Or.inr now) fun other kept => ?_
          rcases List.mem_or_eq_of_mem_set kept with earlier | rfl
          · exact ended.awake other earlier
          · exact ⟨(ended.awake guard member).1, goesOn following rfl⟩

/-- At any time of a run, something has ended it or nothing has. -/
theorem pending_or_over (reached : Runs watch.atTip watch.begun timed) :
    watch.Pending timed ∨ ∃ since, watch.Over since timed := by
  induction reached with
  | refl => exact Or.inl watch.pending_begun
  | tail _ happens ih =>
      rcases ih with pending | ⟨since, ended⟩
      · exact (pending.step happens).imp And.left fun ⟨ended, _⟩ => ⟨_, ended⟩
      · exact Or.inr ⟨since, (ended.step happens).1⟩

theorem ticking_of_runs (reached : Runs watch.atTip watch.begun timed) : timed.Ticking := by
  induction reached with
  | refl =>
      obtain ⟨tip, at?, all⟩ := watch.pending_begun.guards
      intro guard member
      rw [all] at member
      rcases List.mem_cons.1 member with rfl | timing
      · exact at?.ticks
      · obtain ⟨time, -, rfl⟩ := List.mem_map.1 timing
        trivial
  | tail _ happens ih => exact happens.ticking ih

end

/-! ## The moment -/

/-- What holds of a watch at any time of a run. -/
structure Punctual (watch : Watch) (timed : Timed Nat) : Prop where
  /-- Before the token is cancelled the moment is not over and all watchdogs go on. -/
  pending : timed.cancelled token = false →
    timed.now ≤ watch.moment ∧ timed.guards.length = watch.watchdogs.length
  /-- Afterwards the moment has come, and the watchdogs return before it is over. -/
  ended : timed.cancelled token = true →
    watch.moment ≤ timed.now ∧ (timed.guards = [] ∨ timed.now = watch.moment)
  /-- The token is cancelled at the moment. -/
  cancels : ∀ next, Happens watch.atTip timed next → timed.cancelled token = false →
    next.cancelled token = true → next.now = watch.moment
  /-- A cancelled token stays so. -/
  stays : ∀ next, Happens watch.atTip timed next → timed.cancelled token = true →
    next.cancelled token = true
  /-- The store is asked at every tick before the moment. -/
  polled : ∀ tick, watch.interval * tick < timed.now →
    (watch.interval * tick : Nat) < watch.moment → tick ≤ timed.inner
  /-- It is asked at the tick whose answer alone ends the run. -/
  answered : ∀ tick, watch.moment = (watch.interval * tick : Nat) →
    watch.outside ≠ some (watch.interval * tick) → watch.span ≠ some (watch.interval * tick) →
    timed.cancelled token = true → tick ≤ timed.inner
  /-- It is asked at ticks only, in turn, and while the token is not cancelled. -/
  asks : ∀ next, Happens watch.atTip timed next → next.inner ≠ timed.inner →
    next.inner = timed.inner + 1 ∧ timed.now = watch.interval * next.inner ∧
      timed.cancelled token = false
  /-- It is not asked at a tick after the moment. -/
  spared : (watch.interval * timed.inner : Nat) ≤ watch.moment

theorem Pending.punctual {timed : Timed Nat} (pending : watch.Pending timed) :
    watch.Punctual timed where
  pending _ := by
    obtain ⟨tip, -, all⟩ := pending.guards
    exact ⟨le_moment pending.first, by simp [all, watchdogs]⟩
  ended stopped := nomatch pending.free.symm.trans stopped
  cancels next happens _ stopped := by
    rcases pending.step happens with ⟨waits, -⟩ | ⟨ended, -, now⟩
    · nomatch waits.free.symm.trans stopped
    · rw [now, moment_eq ended.cause ended.first]
  stays _ _ stopped := nomatch pending.free.symm.trans stopped
  polled tick passed _ := by
    obtain ⟨tip, at?, -⟩ := pending.guards
    have before := passed.trans_le at?.polled.2
    exact Nat.le_of_lt_succ (Nat.lt_of_mul_lt_mul_left before)
  answered _ _ _ _ stopped := nomatch pending.free.symm.trans stopped
  asks next happens asked := by
    rcases pending.step happens with ⟨-, same | poll⟩ | ⟨-, same, -⟩
    · exact absurd same asked
    · exact ⟨poll.1, poll.2, pending.free⟩
    · exact absurd same asked
  spared := by
    obtain ⟨tip, at?, -⟩ := pending.guards
    exact (Nat.cast_le.2 at?.polled.1).trans (le_moment pending.first)

theorem Over.punctual {since : Nat} {timed : Timed Nat} (ended : watch.Over since timed) :
    watch.Punctual timed := by
  have moment := moment_eq ended.cause ended.first
  constructor
  case pending => exact fun free => nomatch free.symm.trans ended.cancelled
  case ended =>
    rw [moment]
    exact fun _ => ⟨Nat.cast_le.2 ended.later, ended.settled.imp_right Nat.cast_inj.2⟩
  case cancels => exact fun _ _ free => nomatch free.symm.trans ended.cancelled
  case stays => exact fun next happens _ => (ended.step happens).1.cancelled
  case polled =>
    intro tick _ before
    rw [moment] at before
    exact Nat.le_of_lt_succ (Nat.lt_of_mul_lt_mul_left ((Nat.cast_lt.1 before).trans_le ended.next))
  case answered =>
    intro tick same outside span _
    rw [moment] at same
    obtain rfl : since = watch.interval * tick := Nat.cast_inj.1 same
    have onTime := (ended.last.resolve_left outside).resolve_left span
    exact Nat.le_of_mul_le_mul_left onTime.le watch.interval_pos
  case asks => exact fun next happens asked => absurd (ended.step happens).2 asked
  case spared =>
    rw [moment]
    exact Nat.cast_le.2 ended.polled

/-- The token is cancelled at the first of what ends the run, in whatever order things happen at one
instant.  Until then the store is asked at every tick, and afterwards no more.  There is always a
way on, the one of the simulation. -/
theorem runs_punctual {timed : Timed Nat} (reached : Runs watch.atTip watch.begun timed) :
    watch.Punctual timed ∧ ∀ time, timed.now ≤ time → ∃ fuel,
      Runs watch.atTip timed (timed.advance watch.atTip (some time) (fun _ => false) fuel) ∧
        (timed.advance watch.atTip (some time) (fun _ => false) fuel).now = time := by
  refine ⟨?_, fun time later => Timed.exists_advance watch.atTip (ticking_of_runs reached) later⟩
  rcases pending_or_over reached with pending | ⟨since, ended⟩
  · exact pending.punctual
  · exact ended.punctual

/-- A watch of forty seconds at whose end comes the first positive answer, after two failures and a
negative answer. -/
def tiedWatch : Watch :=
  ofConditions { tipDelaySeconds := some 60, durationSeconds := some 40 } 60
    (fun place => if place < 2 then .error (.internal "unavailable") else .ok (2 < place)) none true

theorem moment_tiedWatch : tiedWatch.moment = (40000 : Nat) := by
  refine moment_eq (Or.inr (Or.inl rfl)) ?_
  rintro time (outside | span | ⟨place, positive, rfl⟩)
  · nomatch outside
  · cases span
    exact Nat.le_refl _
  · change 40000 ≤ 10000 * (place + 1)
    by_cases early : place < 2
    · have negative : tiedWatch.answers place = .error (.internal "unavailable") := if_pos early
      nomatch negative.symm.trans positive
    · have answer : tiedWatch.answers place = .ok (2 < place) := if_neg early
      have late : 2 < place := of_decide_eq_true (Except.ok.inj (answer.symm.trans positive))
      omega

/-- The state of that watch after a minute. -/
def tiedEnd : Timed Nat :=
  tiedWatch.begun.advance tiedWatch.atTip (some 60000) (fun _ => false) 20

/-- The run was cancelled after forty seconds and four polls, and the watchdogs have returned. -/
theorem runs_punctual_tiedWatch :
    Runs tiedWatch.atTip tiedWatch.begun tiedEnd ∧ tiedWatch.Punctual tiedEnd ∧
      tiedEnd.now = 60000 ∧ tiedEnd.cancelled token = true ∧ tiedEnd.inner = 4 ∧
      tiedWatch.moment = (40000 : Nat) ∧ tiedEnd.guards = [] := by
  have reached : Runs tiedWatch.atTip tiedWatch.begun tiedEnd := Timed.runs_advance ..
  obtain ⟨punctual, -⟩ := runs_punctual reached
  have cancelled : tiedEnd.cancelled token = true := by decide +kernel
  refine ⟨reached, punctual, by decide +kernel, cancelled, by decide +kernel, moment_tiedWatch, ?_⟩
  refine (punctual.ended cancelled).2.resolve_right fun same => ?_
  rw [moment_tiedWatch] at same
  exact absurd (Nat.cast_inj.1 same) (by decide +kernel)

end Watch

end ChainFollower.Simulation
