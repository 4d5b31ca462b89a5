import ChainFollower.Proofs.Sync.Calls
import Mathlib.Data.List.Infix

/-!
# The discipline of decisions

The blocks handed over and not taken back form a stack, of which the window is the upper
end.  Whatever the remote node and the handler answer, only the top of the stack is taken
back, and only what continues the window is handed over.
-/

namespace ChainFollower.Sync

variable {σ : Type} {around : Surroundings σ} {handler : Handler σ} {start final : Int64}
  {machine next opened : Machine σ} {stack : List BlockId} {limit count : Nat} {call : Call}

/-! ## Stacks -/

/-- The stack, newest first, after a call that was carried out. -/
def Call.stacked (stack : List BlockId) : Call → List BlockId
  | .added block => block.id :: stack
  | .removed _ => stack.tail

/-- The stack after calls that were carried out. -/
def stackAfter (calls : List Call) (stack : List BlockId) : List BlockId :=
  calls.foldl Call.stacked stack

/-- The window is the upper end of a stack, within its limit. -/
structure Windowed (limit : Nat) (stack : List BlockId) (machine : Machine σ) : Prop where
  upper : machine.engine.window <+: stack
  limit_eq : machine.engine.windowLimit = limit
  limited : machine.engine.window.length ≤ limit

namespace Windowed

/-- The last block of the window is the top of the stack. -/
theorem head?_eq (windowed : Windowed limit stack machine) {last : BlockId}
    (newest : machine.engine.window.head? = some last) : stack.head? = some last := by
  obtain ⟨rest, window⟩ := List.head?_eq_some_iff.1 newest
  obtain ⟨below, split⟩ := windowed.upper
  rw [← split, window]
  rfl

/-- A call that is carried out does to the window what it does to the stack. -/
theorem decided (windowed : Windowed limit stack machine) (call : Call) (world : σ) :
    Windowed limit (call.stacked stack) (machine.decided call world) := by
  obtain ⟨upper, limit_eq, limited⟩ := windowed
  cases call with
  | added block =>
      refine ⟨?_, limit_eq, ?_⟩
      · exact (List.take_prefix _ _).trans ((List.prefix_cons_inj _).2 upper)
      · exact limit_eq ▸ List.length_take_le _ _
  | removed id =>
      refine ⟨?_, limit_eq, ?_⟩
      · change machine.engine.window.tail <+: stack.tail
        rw [← List.drop_one, ← List.drop_one]
        exact List.IsPrefix.drop upper 1
      · refine Nat.le_trans ?_ limited
        exact (List.tail_sublist _).length_le

/-- A step that goes on keeps the window at the upper end of the stack. -/
theorem step (windowed : Windowed limit stack machine)
    (stepped : machine.step around handler final = .running next) :
    Windowed limit (stackAfter (machine.call? around).toList stack) next := by
  cases called : machine.call? around with
  | none =>
      obtain ⟨window, limit_eq⟩ := Machine.window_of_silent called stepped
      exact ⟨window ▸ windowed.upper, limit_eq.trans windowed.limit_eq, window ▸ windowed.limited⟩
  | some call =>
      cases result : (handler.carry call (machine.asked around)).1 with
      | error error =>
          cases stepped.symm.trans (Machine.step_of_refused called result)
      | ok =>
          cases stepped.symm.trans (Machine.step_of_granted called result)
          exact windowed.decided call _

/-- So does a run as far as it goes on. -/
theorem run {fuel : Nat} (windowed : Windowed limit stack machine)
    (unfinished : machine.run around handler final fuel = (none, next)) :
    Windowed limit (stackAfter (machine.calls around handler final fuel) stack) next := by
  induction fuel generalizing machine stack with
  | zero =>
      cases unfinished
      exact windowed
  | succ fuel ih =>
      cases stepped : machine.step around handler final with
      | ended result last =>
          rw [Machine.run_of_ended stepped] at unfinished
          cases unfinished
      | running between =>
          rw [Machine.run_of_running stepped] at unfinished
          rw [Machine.calls_of_running stepped, stackAfter, List.foldl_append]
          exact ih (windowed.step stepped) unfinished

/-- A run starts with the window it is given. -/
theorem settled {engine : Engine} {world : σ} (windowed : Windowed limit stack ⟨engine, 0, world⟩)
    (settled : Machine.settle around start ⟨engine, 0, world⟩ = .running machine) :
    Windowed limit stack machine := by
  unfold Machine.settle at settled
  split at settled
  · cases settled
    exact ⟨windowed.upper, windowed.limit_eq, windowed.limited⟩
  · split at settled
    · cases settled
    · dsimp only at settled
      split at settled <;> cases settled
      exact ⟨windowed.upper, windowed.limit_eq, windowed.limited⟩

/-- In whichever order the limit and the seed are set, the window is the upper end of the
seed. -/
theorem seeded {base engine : Engine} {seed : List Block} {world : σ}
    (built : engine = (base.withWindowLimit limit).withPastBlocks seed ∨
      engine = (base.withPastBlocks seed).withWindowLimit limit) :
    Windowed (max limit 1) (seed.map Block.id).reverse ⟨engine, 0, world⟩ := by
  rcases built with rfl | rfl
  · exact ⟨List.take_prefix _ _, rfl, List.length_take_le _ _⟩
  · exact ⟨(List.take_prefix _ _).trans (List.take_prefix _ _), rfl, List.length_take_le _ _⟩

end Windowed

/-! ## Rounds -/

/-- The indices that the rest of a round is about, laid out in advance. -/
def Machine.indices (machine : Machine σ) : List Int64 :=
  (List.range machine.remaining).map fun offset => machine.engine.next + Int64.ofNat offset

/-- The machines of a round, with the number of requests since it was opened. -/
inductive Machine.Within (around : Surroundings σ) (handler : Handler σ) (final : Int64)
    (opened : Machine σ) : Nat → Machine σ → Prop
  | opened : Within around handler final opened 0 opened
  | asked {count : Nat} {machine next : Machine σ}
      (within : Within around handler final opened count machine) (more : machine.remaining ≠ 0)
      (stepped : machine.step around handler final = .running next) :
      Within around handler final opened (count + 1) next

/-- Within a round, each step but the last leads to the next index. -/
theorem Machine.next_of_running (more : machine.remaining ≠ 0)
    (stepped : machine.step around handler final = .running next) (still : next.remaining ≠ 0) :
    next.engine.next = machine.engine.next + 1 ∧ next.remaining + 1 = machine.remaining := by
  have move := Machine.move_step around handler final machine
  rw [stepped] at move
  cases move with
  | noticed spent | rested spent | began status spent => exact absurd spent more
  | interrupted => exact absurd rfl still
  | skipped left round answer => exact ⟨rfl, round.symm⟩
  | decided decision =>
      cases decision with
      | added left block round answer place child granted =>
          exact ⟨congrArg (· + 1) place, round.symm⟩
      | removed => exact absurd rfl still

/-- As long as a round lasts, its indices are asked for one after another. -/
theorem Machine.Within.next_eq (within : Machine.Within around handler final opened count machine)
    (more : machine.remaining ≠ 0) :
    machine.engine.next = opened.engine.next + Int64.ofNat count ∧
      count + machine.remaining = opened.remaining := by
  induction within with
  | opened => exact ⟨(Int64.add_zero _).symm, Nat.zero_add _⟩
  | @asked count before after _ moreBefore stepped ih =>
      obtain ⟨place, left⟩ := ih moreBefore
      obtain ⟨successor, fewer⟩ := Machine.next_of_running moreBefore stepped more
      refine ⟨?_, by omega⟩
      rw [successor, place, Int64.add_assoc, Int64.ofNat_add]
      rfl

theorem Machine.Within.getElem?_indices
    (within : Machine.Within around handler final opened count machine)
    (more : machine.remaining ≠ 0) : opened.indices[count]? = some machine.engine.next := by
  obtain ⟨place, left⟩ := within.next_eq more
  rw [Machine.indices, List.getElem?_map, List.getElem?_range (by omega), place]
  rfl

/-! ## Decisions -/

/-- What the next step of an engine may do to a stack. -/
structure Disciplined (around : Surroundings σ) (handler : Handler σ) (final : Int64) (limit : Nat)
    (stack : List BlockId) (machine : Machine σ) : Prop where
  upper : machine.engine.window <+: stack
  limited : machine.engine.window.length ≤ limit
  /-- The index that is asked for is the next one of those laid out for the round. -/
  inLine : ∀ opened count, Machine.Within around handler final opened count machine →
    machine.remaining ≠ 0 → opened.indices[count]? = some machine.engine.next
  removed : ∀ id, machine.call? around = some (.removed id) →
    stack.head? = some id ∧ ∃ block,
      (machine.ask around).1 = some (.ok (some block)) ∧
      block.id.index = machine.engine.next ∧ block.parent ≠ id
  added : ∀ block, machine.call? around = some (.added block) →
    (machine.ask around).1 = some (.ok (some block)) ∧
    block.id.index = machine.engine.next ∧
    (machine.engine.window ≠ [] → stack.head? = some block.parent)
  /-- Nothing else is asked of the handler. -/
  silent : machine.call? around = none → ∀ other : Handler σ,
    machine.step around handler final = machine.step around other final
  /-- A call that fails is the last one, and leaves the engine as it was. -/
  failed : ∀ call error, machine.call? around = some call →
    (handler.carry call (machine.asked around)).1 = .error error → ∀ fuel,
      machine.calls around handler final (fuel + 1) = [call] ∧
      ∃ last, machine.run around handler final (fuel + 1) = (some (.error error), last) ∧
        last.engine = machine.engine

theorem Windowed.disciplined (windowed : Windowed limit stack machine) :
    Disciplined around handler final limit stack machine where
  upper := windowed.upper
  limited := windowed.limited
  inLine _ _ within more := within.getElem?_indices more
  removed id called := by
    obtain ⟨block, received, verdict⟩ := Machine.call?_eq_some_iff.1 called
    obtain ⟨-, -, answer, place⟩ := Machine.received?_eq_some_iff.1 received
    obtain ⟨newest, other⟩ := Engine.other_of_verdict verdict
    exact ⟨windowed.head?_eq newest, block, answer, place, other⟩
  added block called := by
    obtain ⟨block, received, verdict⟩ := Machine.call?_eq_some_iff.1 called
    obtain ⟨-, -, answer, place⟩ := Machine.received?_eq_some_iff.1 received
    obtain ⟨rfl, child⟩ := Engine.child_of_verdict verdict
    refine ⟨answer, place, fun some => ?_⟩
    obtain ⟨last, rest, window⟩ := List.exists_cons_of_ne_nil some
    have newest : machine.engine.window.head? = .some last := congrArg List.head? window
    rw [child last newest]
    exact windowed.head?_eq newest
  silent called other := Machine.step_congr_handler called other
  failed call error called refused fuel := by
    have stepped : machine.step around handler final = .ended (.error error)
        (machine.moved (handler.carry call (machine.asked around)).2) :=
      Machine.step_of_refused called refused
    refine ⟨?_, _, Machine.run_of_ended stepped fuel, rfl⟩
    rw [Machine.calls_of_ended stepped, called]
    rfl

/-- Throughout a run, whatever the remote node and the handler answer, decisions follow the
stack that begins with the seed. -/
theorem stack_discipline {base engine : Engine} {seed : List Block} {world : σ}
    {first : Machine σ} {fuel : Nat}
    (built : engine = (base.withWindowLimit limit).withPastBlocks seed ∨
      engine = (base.withPastBlocks seed).withWindowLimit limit)
    (settled : Machine.settle around start ⟨engine, 0, world⟩ = .running first)
    (unfinished : first.run around handler final fuel = (none, machine)) :
    Disciplined around handler final (max limit 1)
      (stackAfter (first.calls around handler final fuel) (seed.map Block.id).reverse) machine := by
  have begun : Windowed (max limit 1) (seed.map Block.id).reverse first :=
    (Windowed.seeded built).settled settled
  have windowed := begun.run unfinished
  exact windowed.disciplined

/-- A node that has other blocks than those of the seed at and above index 1. -/
def wavering : Surroundings Unit where
  cancelled _ := false
  status _ := (some (.ok ⟨⟨2, "c"⟩, 0, ⟨0, "a"⟩, none, []⟩), ())
  block index _ _ :=
    (some (.ok (some ⟨⟨index, if index = 1 then "d" else "c"⟩, ⟨0, "a"⟩, 0, [], none⟩)), ())
  rest _ _ := ()

/-- A handler that carries out everything. -/
def willing : Handler Unit := ⟨fun _ _ => (.ok (), ()), fun _ _ => (.ok (), ())⟩

/-- An engine that was given two blocks. -/
def seededEngine : Engine :=
  (Engine.standard.withWindowLimit 2).withPastBlocks
    [⟨⟨0, "a"⟩, ⟨0, "a"⟩, 0, [], none⟩, ⟨⟨1, "b"⟩, ⟨0, "a"⟩, 0, [], none⟩]

/-- Another child of its parent has taken the place of the newest block of the seed, and is
to be taken back in its turn. -/
theorem stack_discipline_wavering :
    let machine : Machine Unit :=
      ⟨{ seededEngine with window := [⟨1, "d"⟩, ⟨0, "a"⟩], next := 2 }, 1, ()⟩
    machine.call? wavering = some (.removed ⟨1, "d"⟩) ∧
      Disciplined wavering willing 2 2 [⟨1, "d"⟩, ⟨0, "a"⟩] machine := by
  intro machine
  have settled : Machine.settle wavering 2 ⟨seededEngine, 0, ()⟩ =
      .running ⟨{ seededEngine with next := 2 }, 0, ()⟩ := rfl
  have unfinished : Machine.run wavering willing 2 4 ⟨{ seededEngine with next := 2 }, 0, ()⟩ =
      (none, machine) := rfl
  exact ⟨rfl, stack_discipline (Or.inl rfl) settled unfinished⟩

end ChainFollower.Sync
