import ChainFollower.Simulation.Timed
import Mathlib.Algebra.GroupWithZero.Nat
import Mathlib.Logic.Relation

/-!
# Events in any order

Whatever waits on a clock happens at its time, but events of one instant may happen in any order.
`Happens` lists what may happen next, and `Runs` leads from a state through any number of such
steps.  The simulation always takes one of them, and with enough fuel its clock reaches every time.
-/

namespace ChainFollower.Simulation.Timed

open Sync (Watchdog TipCheck)

variable {σ : Type} {atTip : Int64 → σ → TipCheck × σ} {timed next : Timed σ}

/-! ## What may happen -/

/-- What becomes of the watchdog at a place, by what it does. -/
def settle (place : Nat) (guard : Guard) (timed : Timed σ) : Watchdog.Action → Timed σ
  | .returns => { timed with guards := timed.guards.eraseIdx place }
  | .cancels => { timed with guards := timed.guards.eraseIdx place }.cancel (.child guard.token)
  | .continues watchdog => { timed with guards := timed.guards.set place { guard with watchdog } }

/-- The turn of the watchdog at a place. -/
def turn (atTip : Int64 → σ → TipCheck × σ) (place : Nat) (guard : Guard) (timed : Timed σ) :
    Timed σ :=
  let (action, inner) := guard.watchdog.act atTip timed.now
    (timed.cancelled (.child guard.token)) timed.inner
  { timed with inner }.settle place guard action

/-- What may happen next.  Time passes up to what waits first; what is due happens in any order. -/
inductive Happens (atTip : Int64 → σ → TipCheck × σ) (timed : Timed σ) : Timed σ → Prop
  | passes (time : Nat) (later : timed.now ≤ time)
      (timers : ∀ timer ∈ timed.timers, time ≤ max timed.now timer.time)
      (guards : ∀ guard ∈ timed.guards,
        time ≤ if timed.acts guard then timed.now else guard.watchdog.wake) :
      Happens atTip timed { timed with now := time }
  | cancels (place : Nat) (timer : Timer) (found : timed.timers[place]? = some timer)
      (due : timer.time ≤ timed.now) :
      Happens atTip timed
        ({ timed with timers := timed.timers.eraseIdx place }.cancel timer.target)
  | acts (place : Nat) (guard : Guard) (found : timed.guards[place]? = some guard)
      (due : timed.acts guard = true) : Happens atTip timed (timed.turn atTip place guard)

/-- Any number of steps. -/
def Runs (atTip : Int64 → σ → TipCheck × σ) : Timed σ → Timed σ → Prop :=
  Relation.ReflTransGen (Happens atTip)

/-! ## The simulation -/

/-- A watchdog that does not act now waits for later. -/
theorem now_lt_wake {guard : Guard} (waits : timed.acts guard = false) :
    timed.now < guard.watchdog.wake := by
  refine Nat.not_le.1 fun awake => ?_
  simp [acts, Watchdog.acts, awake] at waits

/-- An event of the simulation is a timer or a turn that is due, or nothing is due. -/
theorem event_cases (atTip : Int64 → σ → TipCheck × σ) (timed : Timed σ) :
    (∃ (place : Nat) (timer : Timer), timed.timers[place]? = some timer ∧ timer.time ≤ timed.now ∧
      timed.event atTip =
        { timed with timers := timed.timers.eraseIdx place }.cancel timer.target) ∨
    (∃ (place : Nat) (guard : Guard), timed.guards[place]? = some guard ∧ timed.acts guard = true ∧
      timed.event atTip = timed.turn atTip place guard) ∨
    ((∀ timer ∈ timed.timers, timed.now < timer.time) ∧
      (∀ guard ∈ timed.guards, timed.acts guard = false) ∧ timed.event atTip = timed) := by
  unfold event
  split
  next place at? =>
    obtain ⟨within, due, -⟩ := List.findIdx?_eq_some_iff_getElem.1 at?
    have found : timed.timers[place]? = some timed.timers[place] := List.getElem?_eq_getElem within
    rw [found]
    exact Or.inl ⟨place, _, found, of_decide_eq_true due, rfl⟩
  next noTimer =>
    have waiting : ∀ timer ∈ timed.timers, timed.now < timer.time := by
      intro timer member
      have notDue := List.findIdx?_eq_none_iff.1 noTimer timer member
      exact Nat.not_le.1 (of_decide_eq_false notDue)
    split
    next noGuard => exact Or.inr (Or.inr ⟨waiting, List.findIdx?_eq_none_iff.1 noGuard, rfl⟩)
    next place at? =>
      obtain ⟨within, due, -⟩ := List.findIdx?_eq_some_iff_getElem.1 at?
      have found : timed.guards[place]? = some timed.guards[place] :=
        List.getElem?_eq_getElem within
      rw [found]
      exact Or.inr (Or.inl ⟨place, _, found, due, rfl⟩)

/-- An event of the simulation may happen. -/
theorem happens_event (atTip : Int64 → σ → TipCheck × σ) (timed : Timed σ) :
    Happens atTip timed (timed.event atTip) := by
  obtain ⟨place, timer, found, due, same⟩ | ⟨place, guard, found, due, same⟩ |
    ⟨-, waits, same⟩ := event_cases atTip timed <;> rw [same]
  · exact .cancels place timer found due
  · exact .acts place guard found due
  · refine .passes timed.now (Nat.le_refl _) (fun _ _ => Nat.le_max_left ..) fun guard member => ?_
    rw [waits guard member]
    exact Nat.le_of_lt (now_lt_wake (waits guard member))

/-- The clock may move on to the next event, or to any time before it. -/
theorem happens_of_nextEvent? {time : Nat} (later : timed.now ≤ time)
    (before : ∀ event, timed.nextEvent? = some event → time ≤ max timed.now event) :
    Happens atTip timed { timed with now := time } := by
  have before : ∀ event ∈ timed.timers.map Timer.time ++ timed.guards.map (fun guard =>
      if timed.acts guard then timed.now else guard.watchdog.wake), time ≤ max timed.now event := by
    intro event member
    cases least : timed.nextEvent? with
    | none =>
        rw [List.min?_eq_none_iff.1 least] at member
        nomatch member
    | some first =>
        have order : first ≤ event := (List.min?_eq_some_iff.1 least).2 event member
        have bound := before first least
        omega
  refine .passes time later (fun timer member => ?_) fun guard member => ?_
  · exact before _ (List.mem_append_left _ (List.mem_map_of_mem member))
  · have bound := before _ (List.mem_append_right _ (List.mem_map_of_mem member))
    cases due : timed.acts guard with
    | true =>
        rw [due] at bound
        simpa using bound
    | false =>
        have waits := now_lt_wake due
        rw [due] at bound
        simp only [Bool.false_eq_true, if_false] at bound ⊢
        omega

/-- The simulation takes steps that may happen. -/
theorem runs_advance (deadline : Option Nat) (done : Timed σ → Bool) (fuel : Nat)
    (timed : Timed σ) : Runs atTip timed (timed.advance atTip deadline done fuel) := by
  induction fuel generalizing timed with
  | zero => exact .refl
  | succ fuel ih =>
      have onward (time : Nat) (least : timed.nextEvent? = some time) :
          Runs atTip timed ((event atTip { timed with now := max timed.now time }).advance atTip
            deadline done fuel) := by
        refine .head (happens_of_nextEvent? (Nat.le_max_left timed.now time) fun first same => ?_)
          (.head (happens_event atTip _) (ih _))
        cases least.symm.trans same
        exact Nat.le_refl _
      have idle (limit : Nat) (before : ∀ time, timed.nextEvent? = some time → limit ≤ time) :
          Runs atTip timed { timed with now := max timed.now limit } := by
        refine .single (happens_of_nextEvent? (Nat.le_max_left _ _) fun first same => ?_)
        have order := before first same
        omega
      unfold advance
      split
      next => exact .refl
      next =>
        split
        next => exact .refl
        next limit none => exact idle limit fun time same => nomatch none.symm.trans same
        next time limit least =>
          split
          next short =>
            refine idle limit fun first same => ?_
            cases least.symm.trans same
            exact short
          next => exact onward time least
        next time least => exact onward time least

/-! ## Enough fuel -/

/-- More than the number of times a watchdog acts before a time. -/
def stepsBefore (limit : Nat) : Watchdog → Nat
  | .polling _ _ due => 2 * (limit - due) + 1
  | .asking _ _ due _ _ => 2 * (limit - due) + 2
  | .timing _ => 1

/-- More than the number of events before a time. -/
def eventsBefore (limit : Nat) (timed : Timed σ) : Nat :=
  timed.timers.length + (timed.guards.map fun guard => stepsBefore limit guard.watchdog).sum

/-- Whether time passes from poll to poll. -/
def Ticks : Watchdog → Prop
  | .polling _ interval _ | .asking _ interval _ _ _ => 0 < interval
  | .timing _ => True

/-- Whether time passes from poll to poll of every watchdog. -/
def Ticking (timed : Timed σ) : Prop :=
  ∀ guard ∈ timed.guards, Ticks guard.watchdog

theorem stepsBefore_pos (limit : Nat) (watchdog : Watchdog) : 0 < stepsBefore limit watchdog := by
  cases watchdog <;> exact Nat.succ_pos _

theorem le_following (interval due now : Nat) :
    due + interval ≤ Watchdog.following interval due now := by
  unfold Watchdog.following
  split <;> omega

/-- A watchdog that goes on takes up a question at its tick, or drops one that was not answered
with yes. -/
theorem act_continues {now : Nat} {cancelled : Bool} {inner after : σ}
    {watchdog following : Watchdog}
    (acted : watchdog.act atTip now cancelled inner = (.continues following, after)) :
    (∃ delay interval due, watchdog = .polling delay interval due ∧ cancelled = false ∧
      following = .asking delay interval (Watchdog.following interval due now)
        (now + (atTip delay inner).1.millis) (atTip delay inner).1.answer ∧
      after = (atTip delay inner).2) ∨
    ∃ delay interval due finish answer, watchdog = .asking delay interval due finish answer ∧
      answer ≠ .ok true ∧ following = .polling delay interval due ∧ after = inner := by
  cases watchdog with
  | polling delay interval tick =>
      cases cancelled with
      | true => nomatch (Prod.mk.inj acted).1
      | false =>
          obtain ⟨same, rfl⟩ := Prod.mk.inj acted
          cases same
          exact Or.inl ⟨delay, interval, tick, rfl, rfl, rfl, rfl⟩
  | asking delay interval tick finish answer =>
      refine Or.inr ⟨delay, interval, tick, finish, answer, rfl, ?_⟩
      cases answer with
      | error error =>
          cases acted
          exact ⟨nofun, rfl, rfl⟩
      | ok atTip =>
          cases atTip with
          | true => nomatch (Prod.mk.inj acted).1
          | false =>
              cases acted
              exact ⟨nofun, rfl, rfl⟩
  | timing deadline => cases cancelled <;> nomatch (Prod.mk.inj acted).1

/-- A watchdog that goes on has fewer steps before it. -/
theorem stepsBefore_of_continues {limit now : Nat} {cancelled : Bool} {inner after : σ}
    {watchdog following : Watchdog} (ticks : Ticks watchdog) (before : now < limit)
    (due : watchdog.acts now cancelled = true)
    (acted : watchdog.act atTip now cancelled inner = (.continues following, after)) :
    stepsBefore limit following < stepsBefore limit watchdog := by
  obtain ⟨delay, interval, tick, rfl, rfl, rfl, -⟩ | ⟨delay, interval, tick, finish, answer, rfl,
    -, rfl, -⟩ := act_continues acted
  · have reached : tick ≤ now := by
      rcases Bool.or_eq_true_iff.1 due with awake | stopped
      · exact of_decide_eq_true awake
      · nomatch stopped
    have later := le_following interval tick now
    have positive : 0 < interval := ticks
    simp only [stepsBefore]
    omega
  · exact Nat.lt_succ_self _

/-- A watchdog that goes on keeps its interval. -/
theorem ticks_of_continues {now : Nat} {cancelled : Bool} {inner after : σ}
    {watchdog following : Watchdog} (ticks : Ticks watchdog)
    (acted : watchdog.act atTip now cancelled inner = (.continues following, after)) :
    Ticks following := by
  obtain ⟨_, _, _, rfl, -, rfl, -⟩ | ⟨_, _, _, _, _, rfl, -, rfl, -⟩ := act_continues acted
  · exact ticks
  · exact ticks

@[simp] theorem guards_cancel (timed : Timed σ) (target : Target) :
    (timed.cancel target).guards = timed.guards := by
  cases target <;> rfl

@[simp] theorem timers_cancel (timed : Timed σ) (target : Target) :
    (timed.cancel target).timers = timed.timers := by
  cases target <;> rfl

@[simp] theorem now_cancel (timed : Timed σ) (target : Target) :
    (timed.cancel target).now = timed.now := by
  cases target <;> rfl

@[simp] theorem inner_cancel (timed : Timed σ) (target : Target) :
    (timed.cancel target).inner = timed.inner := by
  cases target <;> rfl

theorem cancelled_cancel_parent (timed : Timed σ) (target : Target) :
    (timed.cancel .parent).cancelled target = true := by
  cases target with
  | parent => rfl
  | child place => exact Bool.or_true _

theorem cancelled_cancel_child {place : Nat} (within : place < timed.children.length) :
    (timed.cancel (.child place)).cancelled (.child place) = true := by
  simp [cancel, cancelled, token, Cancellation.isCancelled, List.getD, within]

/-- A token that is cancelled stays so. -/
theorem cancelled_cancel {target : Target} (stopped : timed.cancelled target = true)
    (other : Target) : (timed.cancel other).cancelled target = true := by
  cases other with
  | parent => exact cancelled_cancel_parent timed target
  | child place =>
      cases target with
      | parent => exact stopped
      | child own =>
          refine Bool.or_eq_true_iff.2 ((Bool.or_eq_true_iff.1 stopped).imp_left fun itself => ?_)
          by_cases same : place = own
          · subst same
            by_cases within : place < timed.children.length
            · simp [cancel, token, List.getD, within]
            · simp [token, List.getD, within] at itself
          · simpa [cancel, token, List.getD, List.getElem?_set_ne same] using itself

/-- When the token is cancelled no watchdog asks any more, and one that goes on returns next. -/
theorem act_of_cancelled (atTip : Int64 → σ → TipCheck × σ) (now : Nat) (inner : σ)
    (watchdog : Watchdog) :
    ∃ action, watchdog.act atTip now true inner = (action, inner) ∧
      ∀ following, action = .continues following → following.acts now true = true := by
  cases watchdog with
  | polling delay interval due => exact ⟨.returns, rfl, nofun⟩
  | asking delay interval due finish answer =>
      cases answer with
      | error error => exact ⟨_, rfl, fun _ same => by cases same; exact Bool.or_true _⟩
      | ok atTip =>
          cases atTip with
          | true => exact ⟨.cancels, rfl, nofun⟩
          | false => exact ⟨_, rfl, fun _ same => by cases same; exact Bool.or_true _⟩
  | timing deadline => exact ⟨.returns, rfl, nofun⟩

section

variable {place : Nat} {guard : Guard}

theorem acts_eq {cancelled : Bool} (guard : Guard)
    (state : timed.cancelled (.child guard.token) = cancelled) :
    timed.acts guard = guard.watchdog.acts timed.now cancelled := by
  rw [acts, state]

/-- What a turn comes to, by what the watchdog does. -/
theorem turn_eq {cancelled : Bool} {action : Watchdog.Action} {inner : σ}
    (state : timed.cancelled (.child guard.token) = cancelled)
    (acted : guard.watchdog.act atTip timed.now cancelled timed.inner = (action, inner)) :
    timed.turn atTip place guard = { timed with inner }.settle place guard action := by
  unfold turn
  rw [state, acted]

/-- A turn leaves the clock and the timers alone, and changes one watchdog at most. -/
theorem turn_frame (atTip : Int64 → σ → TipCheck × σ)
    (found : timed.guards[place]? = some guard) :
    (timed.turn atTip place guard).now = timed.now ∧
      (timed.turn atTip place guard).timers = timed.timers ∧
      ∃ before after, timed.guards = before ++ guard :: after ∧
        ((timed.turn atTip place guard).guards = before ++ after ∨
          ∃ watchdog, (guard.watchdog.act atTip timed.now
              (timed.cancelled (.child guard.token)) timed.inner).1 = .continues watchdog ∧
            (timed.turn atTip place guard).guards =
              before ++ { guard with watchdog } :: after) := by
  obtain ⟨within, same⟩ := List.getElem?_eq_some_iff.1 found
  have split : timed.guards =
      timed.guards.take place ++ guard :: timed.guards.drop (place + 1) := by
    rw [← same, ← List.drop_eq_getElem_cons within, List.take_append_drop]
  have erased := List.eraseIdx_eq_take_drop_succ timed.guards place
  cases acted : guard.watchdog.act atTip timed.now (timed.cancelled (.child guard.token))
      timed.inner with
  | mk action inner =>
    rw [turn_eq rfl acted]
    cases action with
    | returns => exact ⟨rfl, rfl, _, _, split, Or.inl erased⟩
    | cancels => exact ⟨rfl, rfl, _, _, split, Or.inl erased⟩
    | continues watchdog =>
        refine ⟨rfl, rfl, _, _, split, Or.inr ⟨watchdog, rfl, ?_⟩⟩
        exact (List.set_eq_take_append_cons_drop ..).trans (if_pos within)

/-- A turn keeps the intervals. -/
theorem ticking_turn (ticking : timed.Ticking) (found : timed.guards[place]? = some guard) :
    (timed.turn atTip place guard).Ticking := by
  obtain ⟨-, -, left, right, split, gone | ⟨watchdog, goesOn, stays⟩⟩ :=
    turn_frame atTip found
  · intro other member
    rw [gone] at member
    refine ticking other (split ▸ ?_)
    rcases List.mem_append.1 member with earlier | later
    · exact List.mem_append_left _ earlier
    · exact List.mem_append_right _ (List.mem_cons_of_mem _ later)
  · intro other member
    rw [stays] at member
    rcases List.mem_append.1 member with earlier | later
    · exact ticking other (split ▸ List.mem_append_left _ earlier)
    · rcases List.mem_cons.1 later with rfl | later
      · exact ticks_of_continues (ticking guard (List.mem_of_getElem? found)) (Prod.ext goesOn rfl)
      · exact ticking other (split ▸ List.mem_append_right _ (List.mem_cons_of_mem _ later))

/-- A turn of a watchdog that is due leaves fewer events. -/
theorem eventsBefore_turn {limit : Nat} (before : timed.now < limit) (ticking : timed.Ticking)
    (found : timed.guards[place]? = some guard) (due : timed.acts guard = true) :
    (timed.turn atTip place guard).eventsBefore limit < timed.eventsBefore limit := by
  obtain ⟨-, timers, left, right, split, gone | ⟨watchdog, goesOn, stays⟩⟩ :=
    turn_frame atTip found
  · have positive := stepsBefore_pos limit guard.watchdog
    simp only [eventsBefore, timers, gone, split, List.map_append, List.map_cons,
      List.sum_append, List.sum_cons]
    omega
  · have fewer := stepsBefore_of_continues (ticking guard (List.mem_of_getElem? found)) before due
      (Prod.ext goesOn rfl)
    simp only [eventsBefore, timers, stays, split, List.map_append, List.map_cons,
      List.sum_append, List.sum_cons]
    omega

end

/-- The clock has something to do when it gets to the next event. -/
theorem due_of_nextEvent? {time : Nat} (least : timed.nextEvent? = some time) :
    (∃ timer ∈ timed.timers, timer.time ≤ max timed.now time) ∨
      ∃ guard ∈ timed.guards, { timed with now := max timed.now time }.acts guard = true := by
  rcases List.mem_append.1 (List.min?_eq_some_iff.1 least).1 with early | early
  · obtain ⟨timer, member, rfl⟩ := List.mem_map.1 early
    exact Or.inl ⟨timer, member, Nat.le_max_right ..⟩
  · obtain ⟨guard, member, wakes⟩ := List.mem_map.1 early
    refine Or.inr ⟨guard, member, Bool.or_eq_true_iff.2 ?_⟩
    cases due : timed.acts guard with
    | true =>
        refine (Bool.or_eq_true_iff.1 due).imp_left fun awake => decide_eq_true ?_
        exact Nat.le_trans (of_decide_eq_true awake) (Nat.le_max_left ..)
    | false =>
        rw [due] at wakes
        exact Or.inl (decide_eq_true (wakes ▸ Nat.le_max_right ..))

/-- What happens keeps the intervals. -/
theorem Happens.ticking (happens : Happens atTip timed next) (ticking : timed.Ticking) :
    next.Ticking := by
  cases happens with
  | passes => exact ticking
  | cancels place timer =>
      unfold Ticking
      rw [guards_cancel]
      exact ticking
  | acts place guard found => exact ticking_turn ticking found

/-- An event that is due leaves fewer events. -/
theorem eventsBefore_event (atTip : Int64 → σ → TipCheck × σ) {limit : Nat}
    (before : timed.now < limit) (ticking : timed.Ticking)
    (due : (∃ timer ∈ timed.timers, timer.time ≤ timed.now) ∨
      ∃ guard ∈ timed.guards, timed.acts guard = true) :
    (timed.event atTip).now = timed.now ∧
      (timed.event atTip).eventsBefore limit < timed.eventsBefore limit := by
  obtain ⟨place, timer, found, -, same⟩ | ⟨place, guard, found, acts, same⟩ |
    ⟨noTimer, noGuard, -⟩ := event_cases atTip timed
  · obtain ⟨within, -⟩ := List.getElem?_eq_some_iff.1 found
    rw [same, eventsBefore, eventsBefore, timers_cancel, guards_cancel, now_cancel,
      List.length_eraseIdx_of_lt within]
    refine ⟨rfl, ?_⟩
    dsimp only
    omega
  · rw [same]
    exact ⟨(turn_frame atTip found).1, eventsBefore_turn before ticking found acts⟩
  · obtain ⟨timer, member, early⟩ | ⟨guard, member, acts⟩ := due
    · exact absurd early (Nat.not_le_of_lt (noTimer timer member))
    · nomatch (noGuard guard member).symm.trans acts

/-- With fuel for the events before a time the clock reaches it. -/
theorem now_advance {limit fuel : Nat} (before : timed.now < limit) (ticking : timed.Ticking)
    (enough : timed.eventsBefore limit < fuel) :
    (timed.advance atTip (some limit) (fun _ => false) fuel).now = limit := by
  induction fuel generalizing timed with
  | zero => nomatch enough
  | succ fuel ih =>
      unfold advance
      rw [if_neg Bool.false_ne_true]
      cases least : timed.nextEvent? with
      | none => exact Nat.max_eq_right (Nat.le_of_lt before)
      | some time =>
          dsimp only
          split
          next => exact Nat.max_eq_right (Nat.le_of_lt before)
          next short =>
            let later := { timed with now := max timed.now time }
            have onTime : later.now < limit := by
              change max timed.now time < limit
              omega
            obtain ⟨same, fewer⟩ := eventsBefore_event atTip onTime ticking
              (due_of_nextEvent? least)
            refine ih (lt_of_eq_of_lt same onTime) ((happens_event atTip later).ticking ticking) ?_
            exact Nat.lt_of_lt_of_le fewer (Nat.le_of_lt_succ enough)

/-- From every state the simulation gets to every later time. -/
theorem exists_advance (atTip : Int64 → σ → TipCheck × σ) (ticking : timed.Ticking) {time : Nat}
    (later : timed.now ≤ time) :
    ∃ fuel, Runs atTip timed (timed.advance atTip (some time) (fun _ => false) fuel) ∧
      (timed.advance atTip (some time) (fun _ => false) fuel).now = time := by
  rcases Nat.lt_or_eq_of_le later with later | same
  · exact ⟨timed.eventsBefore time + 1, runs_advance .., now_advance later ticking
      (Nat.lt_succ_self _)⟩
  · exact ⟨0, .refl, same⟩

end ChainFollower.Simulation.Timed
