import ChainFollower.Proofs.Sync.Discipline
import ChainFollower.Proofs.Sync.Sights

/-!
# Batching

How many blocks a round takes does not show.  Against a remote node that always answers the
same, the engine makes the calls, and comes to the end, of a loop in which every index has a
round of its own; and it makes no difference whether a round is fetched block by block or as
a whole before its first block is looked at.
-/

namespace ChainFollower.Sync

variable {σ : Type} {status : Except SyncError NetworkStatus}
  {remote : Int64 → Except SyncError (Option Block)} {handler : Handler σ} {final : Int64}
  {engine : Engine} {machine : Machine σ}

/-! ## Rounds of one index -/

/-- The loop that gives every index a round of its own: it looks at the status, asks for the
block at the next index and deals with the answer. -/
def Engine.walk (status : Except SyncError NetworkStatus)
    (remote : Int64 → Except SyncError (Option Block)) (handler : Handler σ) (final : Int64) :
    (fuel : Nat) → Engine → σ → Sight
  | 0, _, _ => ⟨[], none⟩
  | fuel + 1, engine, world =>
      engine.consult status final (walk status remote handler final fuel engine world) fun _ =>
        engine.deal handler
          (fun engine _ world => walk status remote handler final fuel engine world)
          engine.next world (remote engine.next)

theorem Paced.congr {following : Engine} (paced : Paced engine)
    (same : following.concurrency = engine.concurrency) : Paced following := by
  unfold Paced
  rw [same]
  exact paced

/-- The rest of a round is within what may be asked for. -/
def Machine.InReach (status : Except SyncError NetworkStatus) (final : Int64)
    (machine : Machine σ) : Prop :=
  machine.remaining ≠ 0 → ∃ seen, status = .ok seen ∧ 0 ≤ machine.engine.next.toInt ∧
    machine.engine.next.toInt + machine.remaining ≤
      (Engine.reachable seen.current.index final).toInt + 1

namespace Machine

/-- What is left of a round is within reach after an index as well. -/
theorem InReach.of_succ {left : Nat} {following : Engine} {cut : Bool} {later : σ}
    (inReach : machine.InReach status final) (round : machine.remaining = left + 1)
    (successor : cut = false → following.next = machine.engine.next + 1) :
    (Machine.mk following (if cut then 0 else left) later).InReach status final := by
  intro more
  cases cut with
  | true => exact absurd rfl more
  | false =>
      have some : left ≠ 0 := more
      obtain ⟨seen, answer, natural, bounded⟩ := inReach (by omega)
      have upper := Words.toInt_lt (Engine.reachable seen.current.index final)
      have next : following.next.toInt = machine.engine.next.toInt + 1 := by
        rw [successor rfl]
        exact Words.toInt_succ (by omega)
      refine ⟨seen, answer, ?_, ?_⟩
      · simp only [next]
        omega
      · simp only [next, Bool.false_eq_true, if_false]
        omega

/-- Within a round, the loop looks at the same status and goes on. -/
theorem InReach.walk_eq (inReach : machine.InReach status final) (more : machine.remaining ≠ 0)
    (fuel : Nat) (world : σ) :
    machine.engine.walk status remote handler final (fuel + 1) world =
      machine.engine.deal handler
        (fun engine _ world => engine.walk status remote handler final fuel world)
        machine.engine.next world (remote machine.engine.next) := by
  obtain ⟨seen, rfl, natural, bounded⟩ := inReach more
  have unsigned : ¬machine.engine.next < 0 := by
    rw [Int64.not_lt, Int64.le_iff_toInt_le]
    exact natural
  have ahead : ¬Engine.reachable seen.current.index final < machine.engine.next := by
    rw [Int64.not_lt, Int64.le_iff_toInt_le]
    omega
  simp only [Engine.walk, Engine.consult, unsigned, ahead, if_false]

variable (small : ∀ seen, status = .ok seen → seen.current.index.toInt < 4611686018427387904)
include small

/-- What shows of a machine shows of the loop as well. -/
theorem exists_walk_eq (remote : Int64 → Except SyncError (Option Block)) (handler : Handler σ)
    (fuel : Nat) (machine : Machine σ) (paced : Paced machine.engine)
    (inReach : machine.InReach status final) :
    ∃ steps, machine.engine.walk status remote handler final steps machine.world =
      machine.sight (.constant status remote) handler final fuel := by
  induction fuel generalizing machine with
  | zero => exact ⟨0, rfl⟩
  | succ fuel ih =>
      cases round : machine.remaining with
      | zero =>
          rw [sight_of_spent round]
          rcases Engine.consult_cases final small paced with
            ⟨sight, halts⟩ | idle | ⟨size, seen, some, answer, natural, bounded, begun⟩
          · refine ⟨1, ?_⟩
            rw [Engine.walk, halts, halts]
          · obtain ⟨steps, same⟩ := ih machine paced inReach
            refine ⟨steps + 1, ?_⟩
            rw [Engine.walk, idle, idle, same]
          · -- a round begins: the loop has yet to take the step
            rw [begun]
            exact ih ⟨machine.engine, size, machine.world⟩ paced
              fun _ => ⟨seen, answer, natural, bounded⟩
      | succ left =>
          rw [sight_of_round round]
          rcases Engine.deal_cases handler machine.engine machine.world
              (remote machine.engine.next) with
            ⟨sight, halts⟩ | ⟨calls, following, cut, later, pace, successor, onward⟩
          · refine ⟨1, ?_⟩
            rw [inReach.walk_eq (by omega), halts, halts]
          · obtain ⟨steps, same⟩ := ih ⟨following, if cut then 0 else left, later⟩
              (paced.congr pace) (inReach.of_succ round successor)
            refine ⟨steps + 1, ?_⟩
            rw [inReach.walk_eq (by omega), onward, onward, same]

/-- What shows of the loop shows of a machine as well. -/
theorem exists_sight_eq (remote : Int64 → Except SyncError (Option Block)) (handler : Handler σ)
    (steps : Nat) (machine : Machine σ) (paced : Paced machine.engine)
    (inReach : machine.InReach status final) :
    ∃ fuel, machine.sight (.constant status remote) handler final fuel =
      machine.engine.walk status remote handler final steps machine.world := by
  induction steps generalizing machine with
  | zero => exact ⟨0, rfl⟩
  | succ steps ih =>
      have inRound : ∀ (machine : Machine σ) (left : Nat), Paced machine.engine →
          machine.InReach status final → machine.remaining = left + 1 →
          ∃ fuel, machine.sight (.constant status remote) handler final fuel =
            machine.engine.walk status remote handler final (steps + 1) machine.world := by
        intro machine left paced inReach round
        rcases Engine.deal_cases handler machine.engine machine.world
            (remote machine.engine.next) with
          ⟨sight, halts⟩ | ⟨calls, following, cut, later, pace, successor, onward⟩
        · refine ⟨1, ?_⟩
          rw [sight_of_round round, inReach.walk_eq (by omega), halts, halts]
        · obtain ⟨fuel, same⟩ := ih ⟨following, if cut then 0 else left, later⟩
            (paced.congr pace) (inReach.of_succ round successor)
          refine ⟨fuel + 1, ?_⟩
          rw [sight_of_round round, inReach.walk_eq (by omega), onward, onward, same]
      cases round : machine.remaining with
      | succ left => exact inRound machine left paced inReach round
      | zero =>
          rcases Engine.consult_cases final small paced with
            ⟨sight, halts⟩ | idle | ⟨size, seen, some, answer, natural, bounded, begun⟩
          · refine ⟨1, ?_⟩
            rw [sight_of_spent round, Engine.walk, halts, halts]
          · obtain ⟨fuel, same⟩ := ih machine paced inReach
            refine ⟨fuel + 1, ?_⟩
            rw [sight_of_spent round, Engine.walk, idle, idle, same]
          · obtain ⟨left, rfl⟩ := Nat.exists_eq_succ_of_ne_zero some
            obtain ⟨fuel, same⟩ := inRound ⟨machine.engine, left + 1, machine.world⟩ left paced
              (fun _ => ⟨seen, answer, natural, bounded⟩) rfl
            refine ⟨fuel + 1, ?_⟩
            rw [sight_of_spent round, begun, same]

end Machine

namespace Engine

/-- A concurrency of which sixteen times is small sets a pace. -/
theorem paced_withConcurrency (engine : Engine) {concurrency : UInt64}
    (few : concurrency.toNat * 16 < 4611686018427387904) :
    Paced (engine.withConcurrency concurrency) := by
  have bounds : 1 ≤ max concurrency.toNat 1 ∧
      max concurrency.toNat 1 * 16 < 4611686018427387904 := by
    omega
  unfold Paced withConcurrency
  rw [Words.toNat_max_one]
  exact bounds

/-- Dealing with an answer does not depend on the concurrency. -/
theorem deal_withConcurrency (handler : Handler σ) (onward : Engine → Bool → σ → Sight)
    (concurrency : UInt64) (index : Int64) (engine : Engine) (world : σ)
    (answer : Except SyncError (Option Block)) :
    (engine.withConcurrency concurrency).deal handler onward index world answer =
      engine.deal handler
        (fun engine cut world => onward (engine.withConcurrency concurrency) cut world)
        index world answer := by
  cases answer with
  | error error => rfl
  | ok found =>
      cases found with
      | none => rfl
      | some block =>
          have same : (engine.withConcurrency concurrency).verdict block = engine.verdict block :=
            rfl
          simp only [deal, same]
          cases engine.verdict block <;> rfl

/-- Neither does the loop. -/
theorem walk_withConcurrency (concurrency : UInt64) (fuel : Nat) (engine : Engine) (world : σ) :
    (engine.withConcurrency concurrency).walk status remote handler final fuel world =
      engine.walk status remote handler final fuel world := by
  induction fuel generalizing engine world with
  | zero => rfl
  | succ fuel ih =>
      rw [walk, walk, deal_withConcurrency]
      simp only [ih]
      rfl

/-- The loop from `start`, or from the genesis block when `start` is -1. -/
def walkFrom (status : Except SyncError NetworkStatus)
    (remote : Int64 → Except SyncError (Option Block)) (handler : Handler σ)
    (start final : Int64) (engine : Engine) (world : σ) (fuel : Nat) : Sight :=
  engine.setOut status start fun engine => engine.walk status remote handler final fuel world

/-- What shows of a run is what shows of its machine. -/
theorem sight_eq_setOut (start : Int64) (engine : Engine) (world : σ) (fuel : Nat) :
    engine.sight (.constant status remote) handler start final world fuel =
      engine.setOut status start fun engine =>
        (Machine.mk engine 0 world).sight (.constant status remote) handler final fuel := by
  by_cases given : start ≠ -1
  · have settled : Machine.settle (.constant status remote) start ⟨engine, 0, world⟩ =
        .running ⟨{ engine with next := start }, 0, world⟩ := if_pos given
    rw [sight_of_running settled]
    exact (if_pos given).symm
  · cases status with
    | error error =>
        have settled : Machine.settle (.constant (.error error) remote) start ⟨engine, 0, world⟩ =
            .ended (.error error) ⟨engine, 0, world⟩ :=
          Machine.settle_of_failure (not_not.1 given) rfl rfl
        simp only [sight_of_ended settled, setOut, given, if_false]
    | ok seen =>
        have settled : Machine.settle (.constant (.ok seen) remote) start ⟨engine, 0, world⟩ =
            .running ⟨{ engine with next := seen.genesis.index }, 0, world⟩ :=
          Machine.settle_of_status (not_not.1 given) rfl rfl
        simp only [sight_of_running settled, setOut, given, if_false]

end Engine

/-! ## Rounds fetched as a whole -/

/-- What is answered for the indices of the rest of a round. -/
def Machine.fetched (remote : Int64 → Except SyncError (Option Block)) (machine : Machine σ) :
    List (Int64 × Except SyncError (Option Block)) :=
  machine.indices.map fun index => (index, remote index)

theorem Machine.fetched_of_spent (spent : machine.remaining = 0) : machine.fetched remote = [] := by
  rw [fetched, indices, spent]
  rfl

theorem Machine.fetched_of_round {left : Nat} (round : machine.remaining = left + 1)
    (following : Engine) (later : σ) (successor : following.next = machine.engine.next + 1) :
    machine.fetched remote = (machine.engine.next, remote machine.engine.next) ::
      (Machine.mk following left later).fetched remote := by
  have rest : (Machine.mk following left later).indices =
      (List.range left).map fun offset => machine.engine.next + Int64.ofNat (offset + 1) := by
    simp only [indices, successor]
    congr 1
    funext offset
    rw [Int64.add_assoc, Nat.add_comm offset 1, Int64.ofNat_add]
    rfl
  have indices : machine.indices =
      machine.engine.next :: (Machine.mk following left later).indices := by
    rw [rest, Machine.indices, round, List.range_succ_eq_map, List.map_cons, List.map_map]
    congr 1
    exact Int64.add_zero _
  rw [fetched, indices, List.map_cons]
  rfl

/-- The loop that fetches a round as a whole and then deals with what was answered; what is
left when a round is cut short is dropped. -/
def Engine.buffered (status : Except SyncError NetworkStatus)
    (remote : Int64 → Except SyncError (Option Block)) (handler : Handler σ) (final : Int64) :
    (fuel : Nat) → Engine → List (Int64 × Except SyncError (Option Block)) → σ → Sight
  | 0, _, _, _ => ⟨[], none⟩
  | fuel + 1, engine, [], world =>
      engine.consult status final (buffered status remote handler final fuel engine [] world)
        fun size => buffered status remote handler final fuel engine
          ((Machine.mk engine size world).fetched remote) world
  | fuel + 1, engine, (index, answer) :: rest, world =>
      engine.deal handler
        (fun engine cut world =>
          buffered status remote handler final fuel engine (if cut then [] else rest) world)
        index world answer

/-- Fetching a round as a whole does not show. -/
theorem Machine.sight_eq_buffered (fuel : Nat) (machine : Machine σ) :
    machine.sight (.constant status remote) handler final fuel =
      machine.engine.buffered status remote handler final fuel (machine.fetched remote)
        machine.world := by
  induction fuel generalizing machine with
  | zero => cases machine.fetched remote <;> rfl
  | succ fuel ih =>
      cases round : machine.remaining with
      | zero =>
          rw [sight_of_spent round, fetched_of_spent round, Engine.buffered, ih,
            fetched_of_spent round]
          congr 1
          funext size
          exact ih ⟨machine.engine, size, machine.world⟩
      | succ left =>
          rw [sight_of_round round, fetched_of_round round machine.engine.skip machine.world rfl,
            Engine.buffered]
          rcases Engine.deal_cases handler machine.engine machine.world
              (remote machine.engine.next) with
            ⟨sight, halts⟩ | ⟨calls, following, cut, later, pace, successor, onward⟩
          · rw [halts, halts]
          · rw [onward, onward, ih]
            have rest : (Machine.mk following (if cut then 0 else left) later).fetched remote =
                if cut then [] else
                  (Machine.mk machine.engine.skip left machine.world).fetched remote := by
              cases cut with
              | true => exact fetched_of_spent rfl
              | false =>
                  simp only [fetched, indices, successor rfl, Bool.false_eq_true, if_false]
                  rfl
            rw [rest]

/-- The same from `start`, or from the genesis block when `start` is -1. -/
def Engine.bufferedFrom (status : Except SyncError NetworkStatus)
    (remote : Int64 → Except SyncError (Option Block)) (handler : Handler σ)
    (start final : Int64) (engine : Engine) (world : σ) (fuel : Nat) : Sight :=
  engine.setOut status start fun engine =>
    engine.buffered status remote handler final fuel [] world

/-! ## Batches -/

/-- A sight that a run comes to show. -/
def Engine.Shows (around : Surroundings σ) (handler : Handler σ) (start final : Int64)
    (engine : Engine) (world : σ) (sight : Sight) : Prop :=
  ∃ fuel, engine.sight around handler start final world fuel = sight

section

variable (small : ∀ seen, status = .ok seen → seen.current.index.toInt < 4611686018427387904)
include small

/-- A run shows what the loop shows that gives every index a round of its own. -/
theorem Engine.shows_iff_walkFrom (remote : Int64 → Except SyncError (Option Block))
    (handler : Handler σ) (start final : Int64) (engine : Engine) (world : σ)
    (concurrency : UInt64) (few : concurrency.toNat * 16 < 4611686018427387904) (sight : Sight) :
    (engine.withConcurrency concurrency).Shows (.constant status remote) handler start final world
        sight ↔
      ∃ steps, engine.walkFrom status remote handler start final world steps = sight := by
  simp only [Shows, sight_eq_setOut, walkFrom]
  rcases setOut_cases status start with ⟨result, ended⟩ | ⟨index, settled⟩
  · simp only [ended]
    exact Iff.rfl
  · simp only [settled]
    have paced := paced_withConcurrency { engine with next := index } few
    have same (steps : Nat) :
        Engine.walk status remote handler final steps
            { engine.withConcurrency concurrency with next := index } world =
          Engine.walk status remote handler final steps { engine with next := index } world :=
      walk_withConcurrency concurrency steps { engine with next := index } world
    constructor
    · rintro ⟨fuel, rfl⟩
      obtain ⟨steps, walked⟩ := Machine.exists_walk_eq small remote handler fuel
        ⟨{ engine.withConcurrency concurrency with next := index }, 0, world⟩ paced
        fun more => absurd rfl more
      exact ⟨steps, (same steps).symm.trans walked⟩
    · rintro ⟨steps, rfl⟩
      obtain ⟨fuel, shown⟩ := Machine.exists_sight_eq small remote handler steps
        ⟨{ engine.withConcurrency concurrency with next := index }, 0, world⟩ paced
        fun more => absurd rfl more
      exact ⟨fuel, shown.trans (same steps)⟩

/-- How many blocks a round takes does not show. -/
theorem batching_invisible (remote : Int64 → Except SyncError (Option Block))
    (handler : Handler σ) (start final : Int64) (engine : Engine) (world : σ)
    (few many : UInt64) (fewBounded : few.toNat * 16 < 4611686018427387904)
    (manyBounded : many.toNat * 16 < 4611686018427387904) :
    (∀ sight, (engine.withConcurrency few).Shows (.constant status remote) handler start final
        world sight ↔
      (engine.withConcurrency many).Shows (.constant status remote) handler start final
        world sight) ∧
    (∀ sight, (engine.withConcurrency few).Shows (.constant status remote) handler start final
        world sight ↔
      ∃ steps, engine.walkFrom status remote handler start final world steps = sight) ∧
    ∀ fuel, (engine.withConcurrency few).sight (.constant status remote) handler start final
        world fuel =
      (engine.withConcurrency few).bufferedFrom status remote handler start final world fuel := by
  have walks := Engine.shows_iff_walkFrom small remote handler start final engine world
  refine ⟨fun sight => (walks few fewBounded sight).trans (walks many manyBounded sight).symm,
    walks few fewBounded, fun fuel => ?_⟩
  rw [Engine.sight_eq_setOut, Engine.bufferedFrom]
  congr 1
  funext engine
  rw [Machine.sight_eq_buffered, Machine.fetched_of_spent rfl]

end

/-- A node on whose chain another block stands at index 1 than in the seed of
`seededEngine`. -/
def forkedNode (index : Int64) : Except SyncError (Option Block) :=
  .ok (some ⟨⟨index, if index = 1 then "d" else "e"⟩, ⟨index - 1, if index = 1 then "a" else "d"⟩,
    0, [], none⟩)

/-- Whatever the concurrency, the fork makes the engine take back the newest block of its
seed before it hands over the two blocks above index 0. -/
theorem batching_invisible_forkedNode :
    let status : Except SyncError NetworkStatus := .ok ⟨⟨2, "e"⟩, 0, ⟨0, "a"⟩, none, []⟩
    let seen : Sight := ⟨[.removed ⟨1, "b"⟩, .added ⟨⟨1, "d"⟩, ⟨0, "a"⟩, 0, [], none⟩,
      .added ⟨⟨2, "e"⟩, ⟨1, "d"⟩, 0, [], none⟩], some (.ok (), 3)⟩
    (seededEngine.withConcurrency 1).Shows (.constant status forkedNode) willing 2 2 () seen ∧
      (seededEngine.withConcurrency 64).Shows (.constant status forkedNode) willing 2 2 () seen := by
  intro status seen
  have small : ∀ seen, status = .ok seen → seen.current.index.toInt < 4611686018427387904 := by
    intro seen same
    cases (show status = .ok ⟨⟨2, "e"⟩, 0, ⟨0, "a"⟩, none, []⟩ from rfl).symm.trans same
    decide
  have invisible := batching_invisible small forkedNode willing 2 2 seededEngine () 1 64
    (by decide) (by decide)
  have alone : (seededEngine.withConcurrency 1).Shows (.constant status forkedNode) willing 2 2 ()
      seen :=
    (invisible.2.1 seen).2 ⟨4, rfl⟩
  exact ⟨alone, (invisible.1 seen).1 alone⟩

end ChainFollower.Sync
