import ChainFollower.Proofs.Sync.Calls
import ChainFollower.Sync.Network

/-!
# How many requests are in flight

Over a network, a run sends the requests of a round in the order of the indices and each of
them once.  Those whose answers were not taken up yet are the last ones that it has sent, for
the next indices, and they are fewer than the concurrency between two steps.
-/

namespace ChainFollower.Sync

variable {ε : Type} {network : Network ε} {flight : Flight ε} {index final : Int64} {ahead : Nat}

/-- The requests for so many blocks from the first one on. -/
def blockQueries (first : Int64) (count : Nat) : List Query :=
  (List.range count).map fun later => .block (first + Int64.ofNat later)

theorem blockQueries_succ (first : Int64) (count : Nat) :
    blockQueries first (count + 1) = .block first :: blockQueries (first + 1) count := by
  have successor (later : Nat) :
      first + Int64.ofNat (later + 1) = first + 1 + Int64.ofNat later := by
    rw [Nat.add_comm, Int64.ofNat_add, Int64.add_assoc]
    rfl
  simp only [blockQueries, List.range_succ_eq_map, List.map_cons, List.map_map]
  congr 1
  · simp
  · exact List.map_congr_left fun later _ => congrArg Query.block (successor later)

theorem blockQueries_add (first : Int64) (count more : Nat) :
    blockQueries first (count + more) =
      blockQueries first count ++ blockQueries (first + Int64.ofNat count) more := by
  simp only [blockQueries, List.range_add, List.map_append, List.map_map]
  congr 1
  exact List.map_congr_left fun later _ => by
    simp only [Function.comp_apply, Int64.ofNat_add, Int64.add_assoc]

namespace Network

theorem queries_launch (count : Nat) :
    (network.launch count index flight).queries = flight.queries ++ blockQueries index count := by
  induction count generalizing index flight with
  | zero => exact (List.append_nil _).symm
  | succ count ih =>
      rw [launch, ih, blockQueries_succ]
      exact List.append_assoc _ _ _

theorem aloft_launch (count : Nat) :
    (network.launch count index flight).aloft = flight.aloft + count := by
  induction count generalizing index flight with
  | zero => rfl
  | succ count ih =>
      rw [launch, ih]
      exact Nat.add_right_comm _ _ _

/-- An answer is taken up to a request that is in flight. -/
theorem one_le_reach (network : Network ε) (ahead : Nat) (flight : Flight ε) :
    1 ≤ network.reach ahead flight := by
  unfold reach
  omega

/-- Once the next block is asked for, so many requests are in flight beyond that for it. -/
theorem aloft_block (few : flight.aloft ≤ ahead + 1) :
    (network.surroundings.block index ahead flight).2.aloft + 1 =
        max flight.aloft (network.reach ahead flight) ∧
      (network.surroundings.block index ahead flight).2.aloft ≤ ahead := by
  have least := network.one_le_reach ahead flight
  have most : network.reach ahead flight ≤ ahead + 1 := Nat.min_le_left _ _
  simp only [surroundings, aloft_launch]
  omega

/-- The last requests sent stay those in flight. -/
theorem sent_block (few : flight.aloft ≤ ahead + 1)
    (sent : blockQueries index flight.aloft <:+ flight.queries) :
    blockQueries (index + 1) (network.surroundings.block index ahead flight).2.aloft <:+
      (network.surroundings.block index ahead flight).2.queries := by
  obtain ⟨earlier, before⟩ := sent
  obtain ⟨count, counted⟩ : ∃ count, (network.surroundings.block index ahead flight).2.aloft + 1 =
      flight.aloft + count ∧ network.reach ahead flight - flight.aloft = count :=
    ⟨_, by rw [(aloft_block few).1]; omega, rfl⟩
  have queries : (network.surroundings.block index ahead flight).2.queries =
      earlier ++ blockQueries index (flight.aloft + count) := by
    simp only [surroundings, queries_launch]
    rw [counted.2, ← before, blockQueries_add, List.append_assoc]
  rw [queries, ← counted.1, blockQueries_succ]
  exact (List.suffix_cons _ _).trans (List.suffix_append _ _)

end Network

/-! ## Runs -/

/-- Calls leave the requests alone. -/
def Handler.Offline (handler : Handler (Flight ε)) : Prop :=
  ∀ call flight, (handler.carry call flight).2.queries = flight.queries ∧
    (handler.carry call flight).2.aloft = flight.aloft

/-- Within a round, the requests in flight are the last ones that were sent, for the next
indices of the round, and fewer than the concurrency. -/
structure Machine.InFlight (machine : Machine (Flight ε)) : Prop where
  few : machine.remaining ≠ 0 → machine.world.aloft ≤ machine.remaining ∧
    machine.world.aloft ≤ machine.engine.concurrency.toNat - 1
  sent : machine.remaining ≠ 0 →
    blockQueries machine.engine.next machine.world.aloft <:+ machine.world.queries

namespace Machine.InFlight

variable {handler : Handler (Flight ε)} {machine next : Machine (Flight ε)} {left : Nat}

theorem of_spent (spent : machine.remaining = 0) : machine.InFlight :=
  ⟨fun more => absurd spent more, fun more => absurd spent more⟩

/-- Once the next block is asked for, those ahead of it are in flight. -/
theorem asked (inFlight : machine.InFlight) (round : machine.remaining = left + 1)
    {engine : Engine} (concurrency : engine.concurrency = machine.engine.concurrency)
    (successor : engine.next = machine.engine.next + 1) {world : Flight ε}
    (queries : world.queries = (machine.asked network.surroundings).queries)
    (aloft : world.aloft = (machine.asked network.surroundings).aloft) :
    Machine.InFlight ⟨engine, left, world⟩ := by
  have more : machine.remaining ≠ 0 := by omega
  obtain ⟨short, below⟩ := inFlight.few more
  have few : machine.world.aloft ≤ machine.ahead + 1 := by
    unfold Machine.ahead
    omega
  have most : (machine.asked network.surroundings).aloft ≤ machine.ahead :=
    (Network.aloft_block few).2
  refine ⟨fun _ => ?_, fun _ => ?_⟩
  · change world.aloft ≤ left ∧ world.aloft ≤ engine.concurrency.toNat - 1
    rw [aloft, concurrency]
    unfold Machine.ahead at most
    omega
  · change blockQueries engine.next world.aloft <:+ world.queries
    rw [aloft, queries, successor]
    exact Network.sent_block few (inFlight.sent more)

/-- A step keeps them in flight. -/
theorem step (inFlight : machine.InFlight) (offline : handler.Offline)
    (stepped : machine.step network.surroundings handler final = .running next) :
    next.InFlight := by
  have move := Machine.move_step network.surroundings handler final machine
  rw [stepped] at move
  cases move with
  | noticed spent | rested spent => exact .of_spent spent
  | began status spent natural answer reached =>
      exact ⟨fun _ => ⟨Nat.zero_le _, Nat.zero_le _⟩, fun _ => List.nil_suffix⟩
  | interrupted left round answer => exact .of_spent rfl
  | skipped left round answer =>
      refine inFlight.asked round ?_ ?_ rfl rfl
      all_goals exact rfl
  | decided decision =>
      cases decision with
      | added left block round answer place child granted =>
          have kept := offline (.added block) (machine.asked network.surroundings)
          refine inFlight.asked round ?_ ?_ kept.1 kept.2
          · exact rfl
          · exact congrArg (· + 1) place
      | removed left block last round => exact .of_spent rfl

/-- And so does a run. -/
theorem reached {first : Machine (Flight ε)} (begins : first.remaining = 0)
    (offline : handler.Offline)
    (reached : Machine.Reached network.surroundings handler final first machine) :
    machine.InFlight := by
  induction reached with
  | start => exact .of_spent begins
  | step _ stepped ih => exact ih.step offline stepped

end Machine.InFlight

end ChainFollower.Sync
