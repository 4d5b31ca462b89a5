import ChainFollower.Proofs.Sync.Discipline
import ChainFollower.Proofs.Sync.Trails

/-!
# The range of a run

Whatever the remote node and the handler answer, a run keeps to its range: its rounds go on from
the next index, no further than the tip they were told of and the end of the run, and a run that
ends well without being cancelled has got exactly as far as its end.
-/

namespace ChainFollower.Sync

variable {σ : Type} {around : Surroundings σ} {handler : Handler σ} {start first final : Int64}
  {machine next opened : Machine σ} {left : Nat}

/-- The window is below the next index, and what is left of a round is within words and not
beyond the end.  An end below the first index leaves the engine where it is. -/
structure Ranged (first final : Int64) (machine : Machine σ) : Prop where
  falling : machine.engine.window.Pairwise fun upper lower => lower.index < upper.index
  /-- The successor of the last index wraps around, but then no other round begins. -/
  below : 0 ≤ machine.engine.next →
    ∀ id ∈ machine.engine.window, id.index < machine.engine.next
  fits : machine.remaining ≠ 0 → 0 ≤ machine.engine.next.toInt ∧
    machine.engine.next.toInt + machine.remaining ≤ 9223372036854775808
  bounded : final ≠ -1 →
    (first.toInt ≤ final.toInt + 1 ∧
      machine.engine.next.toInt + machine.remaining ≤ final.toInt + 1) ∨
    (final < first ∧ machine.engine.next = first ∧ machine.remaining = 0)

namespace Ranged

/-! ## Steps -/

/-- A round may be cut short. -/
theorem shortened (ranged : Ranged first final machine) (engine : next.engine = machine.engine)
    (fewer : next.remaining ≤ machine.remaining) : Ranged first final next where
  falling := engine ▸ ranged.falling
  below := engine ▸ ranged.below
  fits more := by
    have fits := ranged.fits (by omega)
    rw [engine]
    omega
  bounded given := by
    rw [engine]
    rcases ranged.bounded given with ⟨reaches, within⟩ | ⟨less, place, spent⟩
    · exact Or.inl ⟨reaches, by omega⟩
    · exact Or.inr ⟨less, place, by omega⟩

/-- A new round reaches as far as the tip and the end let it. -/
theorem began (ranged : Ranged first final machine) {tip : Int64}
    (natural : 0 ≤ machine.engine.next)
    (reached : machine.engine.next ≤ Engine.reachable tip final) (world : σ) :
    Ranged first final
      ⟨machine.engine, machine.engine.roundSize (Engine.reachable tip final), world⟩ where
  falling := ranged.falling
  below := ranged.below
  fits _ := by
    have within := Engine.next_add_roundSize_le reached
    have upper := Words.toInt_lt (Engine.reachable tip final)
    exact ⟨Int64.le_iff_toInt_le.1 natural, Int.le_trans within (by omega)⟩
  bounded given := by
    have within := Engine.next_add_roundSize_le reached
    have upper := Int64.le_iff_toInt_le.1 (Engine.reachable_le_final given tip)
    rcases ranged.bounded given with ⟨reaches, -⟩ | ⟨less, place, -⟩
    · exact Or.inl ⟨reaches, Int.le_trans within (by omega)⟩
    · have ahead := Int64.le_trans reached (Engine.reachable_le_final given tip)
      rw [place] at ahead
      exact absurd less (Int64.not_lt.2 ahead)

/-- An index is dealt with, whether there was a block or not. -/
theorem succ (ranged : Ranged first final machine) (round : machine.remaining = left + 1)
    {engine : Engine} (successor : engine.next = machine.engine.next + 1)
    (falling : engine.window.Pairwise fun upper lower => lower.index < upper.index)
    (upTo : ∀ id ∈ engine.window, id.index ≤ machine.engine.next) (world : σ) :
    Ranged first final ⟨engine, left, world⟩ := by
  obtain ⟨natural, fits⟩ := ranged.fits (by omega)
  have bounded := ranged.bounded
  have lowest := Words.le_toInt final
  have upper := Words.toInt_lt machine.engine.next
  -- The last index is the last of its round, and has a negative successor.
  have place : engine.next.toInt = machine.engine.next.toInt + 1 ∨
      engine.next.toInt = -9223372036854775808 ∧ left = 0 := by
    by_cases last : machine.engine.next = Int64.maxValue
    · rw [successor, last]
      rw [last, Int64.toInt_maxValue] at fits
      exact Or.inr ⟨rfl, by omega⟩
    · rw [successor]
      exact Or.inl (Words.toInt_succ (Words.ne_maxValue_iff.1 last))
  refine ⟨falling, fun naturalNext id member => ?_, fun more => ?_, fun given => ?_⟩
  · have least : 0 ≤ engine.next.toInt := Int64.le_iff_toInt_le.1 naturalNext
    have order := Int64.le_iff_toInt_le.1 (upTo id member)
    rw [Int64.lt_iff_toInt_lt]
    dsimp only
    omega
  · dsimp only at more ⊢
    omega
  · rcases bounded given with ⟨reaches, within⟩ | ⟨-, -, spent⟩
    · refine Or.inl ⟨reaches, ?_⟩
      dsimp only
      omega
    · omega

/-- What is taken back was below the next index. -/
theorem popped (ranged : Ranged first final machine) (round : machine.remaining = left + 1)
    {last : BlockId} (newest : machine.engine.window.head? = some last) (world : σ) :
    Ranged first final ⟨machine.engine.pop last, 0, world⟩ := by
  obtain ⟨natural, fits⟩ := ranged.fits (by omega)
  obtain ⟨rest, window⟩ := List.head?_eq_some_iff.1 newest
  have falling := ranged.falling
  rw [window] at falling
  have tail : (machine.engine.pop last).window = rest := congrArg List.tail window
  have lower := Int64.lt_iff_toInt_lt.1 (ranged.below (Int64.le_iff_toInt_le.2 natural) last
    (window ▸ List.mem_cons_self))
  refine ⟨tail ▸ falling.tail, fun _ id member => ?_, fun more => absurd rfl more,
    fun given => ?_⟩
  · exact (List.pairwise_cons.1 falling).1 id (tail ▸ member)
  · rcases ranged.bounded given with ⟨reaches, within⟩ | ⟨-, -, spent⟩
    · refine Or.inl ⟨reaches, ?_⟩
      change last.index.toInt + (0 : Nat) ≤ _
      omega
    · omega

/-- A block that is handed over is the highest of the window. -/
theorem pushed (ranged : Ranged first final machine) (round : machine.remaining = left + 1)
    {id : BlockId} (place : id.index = machine.engine.next) (world : σ) :
    Ranged first final ⟨machine.engine.push id, left, world⟩ := by
  have below := ranged.below (Int64.le_iff_toInt_le.2 (ranged.fits (by omega)).1)
  refine ranged.succ round (congrArg (· + 1) place) ?_ ?_ world
  · refine List.Pairwise.take (List.pairwise_cons.2 ⟨fun lower member => ?_, ranged.falling⟩)
    exact place ▸ below lower member
  · intro other member
    rcases List.mem_cons.1 (List.mem_of_mem_take member) with rfl | member
    · exact Int64.le_of_eq place
    · exact Int64.le_of_lt (below other member)

/-- A step that goes on keeps to the range. -/
theorem step (ranged : Ranged first final machine)
    (stepped : machine.step around handler final = .running next) : Ranged first final next := by
  have move := Machine.move_step around handler final machine
  rw [stepped] at move
  cases move with
  | noticed | rested => exact ranged.shortened rfl (Nat.le_refl _)
  | began status spent natural answer reached => exact ranged.began natural reached _
  | interrupted => exact ranged.shortened rfl (Nat.zero_le _)
  | skipped left round answer =>
      have below := ranged.below (Int64.le_iff_toInt_le.2 (ranged.fits (by omega)).1)
      refine ranged.succ round ?_ ?_ (fun id member => ?_) _
      · rfl
      · exact ranged.falling
      · exact Int64.le_of_lt (below id member)
  | decided decision =>
      cases decision with
      | added left block round answer place child granted => exact ranged.pushed round place _
      | removed left block last round answer place newest other granted =>
          exact ranged.popped round newest _

/-! ## Runs -/

/-- So does a run. -/
theorem reached {begun : Machine σ} (ranged : Ranged first final begun)
    (reached : Machine.Reached around handler final begun machine) :
    Ranged first final machine := by
  induction reached with
  | start => exact ranged
  | step _ stepped ih => exact ih.step stepped

end Ranged

/-- A run begins in its range if its seed rises and is below the first index. -/
theorem Ranged.settled {limit : Nat} {base engine : Engine} {seed : List Block} {world : σ}
    {begun : Machine σ}
    (built : engine = (base.withWindowLimit limit).withPastBlocks seed ∨
      engine = (base.withPastBlocks seed).withWindowLimit limit)
    (rising : seed.Pairwise fun older newer => older.id.index < newer.id.index)
    (settled : Machine.settle around start ⟨engine, 0, world⟩ = .running begun)
    (below : ∀ block ∈ seed, block.id.index < begun.engine.next) :
    Ranged begun.engine.next final begun := by
  have windowed : Windowed (max limit 1) (seed.map Block.id).reverse begun :=
    (Windowed.seeded built).settled settled
  have spent := Machine.remaining_of_settle settled
  refine ⟨?_, fun _ id member => ?_, fun more => absurd spent more, fun given => ?_⟩
  · refine List.Pairwise.sublist windowed.upper.sublist ?_
    exact List.pairwise_reverse.2 (List.pairwise_map.2 rising)
  · obtain ⟨block, among, rfl⟩ :=
      List.mem_map.1 (List.mem_reverse.1 (windowed.upper.subset member))
    exact below block among
  · by_cases less : final < begun.engine.next
    · exact Or.inr ⟨less, rfl, spent⟩
    · have order := Int64.le_iff_toInt_le.1 (Int64.not_lt.1 less)
      rw [spent]
      exact Or.inl ⟨by omega, by omega⟩

/-! ## Indices -/

/-- The indices of a round are consecutive numbers. -/
theorem Ranged.toInt_of_getElem?_indices (ranged : Ranged first final machine) {offset : Nat}
    {index : Int64} (laid : machine.indices[offset]? = some index) :
    offset < machine.remaining ∧ index.toInt = machine.engine.next.toInt + offset := by
  rw [Machine.indices, List.getElem?_map, Option.map_eq_some_iff] at laid
  obtain ⟨place, found, rfl⟩ := laid
  obtain ⟨within, rfl⟩ := List.getElem?_eq_some_iff.1 found
  rw [List.length_range] at within
  obtain ⟨natural, fits⟩ := ranged.fits (by omega)
  rw [List.getElem_range]
  have word : (Int64.ofNat offset).toInt = offset := Int64.toInt_ofNat_of_lt (by omega)
  refine ⟨within, ?_⟩
  rw [Words.toInt_add, word] <;> rw [word] <;> omega

/-- None of them is beyond the end. -/
theorem Ranged.le_final_of_mem_indices (ranged : Ranged first final machine) (given : final ≠ -1)
    {index : Int64} (member : index ∈ machine.indices) : index ≤ final := by
  obtain ⟨offset, laid⟩ := List.mem_iff_getElem?.1 member
  obtain ⟨within, place⟩ := ranged.toInt_of_getElem?_indices laid
  rw [Int64.le_iff_toInt_le]
  rcases ranged.bounded given with ⟨-, bounded⟩ | ⟨-, -, spent⟩
  · omega
  · omega

/-! ## Runs within their range -/

/-- What a run keeps to, and how far it has come when it ends. -/
structure InRange (around : Surroundings σ) (handler : Handler σ) (final : Int64)
    (begun : Machine σ) : Prop where
  /-- The indices of a round follow one another from the next one on, up to the tip that the
  status names and to the end at most, and they are dealt with in this order. -/
  rounds : ∀ before opened, Machine.Reached around handler final begun before →
    before.remaining = 0 → before.step around handler final = .running opened →
    opened.remaining ≠ 0 →
    ∃ status, (around.status before.world).1 = some (.ok status) ∧
      (∀ (offset : Nat) (index : Int64), opened.indices[offset]? = some index →
        index.toInt = before.engine.next.toInt + offset ∧ index ≤ status.current.index ∧
          (final ≠ -1 → index ≤ final)) ∧
      ∀ count machine, Machine.Within around handler final opened count machine →
        machine.remaining ≠ 0 → opened.indices[count]? = some machine.engine.next
  /-- No block beyond the end is asked for or handed over. -/
  within : final ≠ -1 → ∀ machine, Machine.Reached around handler final begun machine →
    (∀ index ∈ machine.indices, index ≤ final) ∧
      ∀ block, machine.call? around = some (.added block) → block.id.index ≤ final
  /-- A run that ends well and is not cancelled was given an end, and everything from the first
  index through the end has been dealt with. -/
  completes : ∀ fuel last, begun.run around handler final fuel = (some (.ok ()), last) →
    around.cancelled last.world = false →
    final ≠ -1 ∧ last.engine.next.toInt = max begun.engine.next.toInt (final.toInt + 1)

/-- A round that is opened is about as many indices as there are up to the tip at most. -/
theorem Machine.exists_status_of_opened (spent : machine.remaining = 0)
    (stepped : machine.step around handler final = .running opened)
    (more : opened.remaining ≠ 0) :
    ∃ status, (around.status machine.world).1 = some (.ok status) ∧
      opened.engine = machine.engine ∧
      machine.engine.next.toInt + opened.remaining ≤ status.current.index.toInt + 1 := by
  have move := Machine.move_step around handler final machine
  rw [stepped] at move
  cases move with
  | noticed | rested => exact absurd spent more
  | began status _ natural answer reached =>
      have tip := Int64.le_iff_toInt_le.1 (Engine.reachable_le status.current.index final)
      have within := Engine.next_add_roundSize_le reached
      exact ⟨status, answer, rfl, Int.le_trans within (by omega)⟩
  | interrupted => exact absurd rfl more
  | skipped left round => exact absurd (round.symm.trans spent) (Nat.succ_ne_zero left)
  | decided decision =>
      cases decision with
      | added left block round => exact absurd (round.symm.trans spent) (Nat.succ_ne_zero left)
      | removed => exact absurd rfl more

/-- An engine that has finished has come right after the end, or has not moved. -/
theorem Ranged.next_eq_of_finished (ranged : Ranged first final machine)
    (finished : machine.engine.finished final = true) :
    final ≠ -1 ∧ machine.engine.next.toInt = max first.toInt (final.toInt + 1) := by
  simp only [Engine.finished, Bool.and_eq_true, decide_eq_true_eq] at finished
  obtain ⟨given, passed⟩ := finished
  have beyond := Int64.lt_iff_toInt_lt.1 passed
  refine ⟨given, ?_⟩
  rcases ranged.bounded given with ⟨reaches, within⟩ | ⟨short, place, -⟩
  · omega
  · have order := Int64.lt_iff_toInt_lt.1 short
    rw [place]
    omega

theorem Ranged.inRange {begun : Machine σ} (ranged : Ranged begun.engine.next final begun) :
    InRange around handler final begun where
  rounds before opened reached spent stepped more := by
    obtain ⟨status, answer, engine, tip⟩ := Machine.exists_status_of_opened spent stepped more
    have rangedOpened := (ranged.reached reached).step stepped
    refine ⟨status, answer, fun offset index laid => ?_, fun count machine within still =>
      within.getElem?_indices still⟩
    obtain ⟨within, place⟩ := rangedOpened.toInt_of_getElem?_indices laid
    rw [engine] at place
    refine ⟨place, ?_, fun given => ?_⟩
    · rw [Int64.le_iff_toInt_le]
      omega
    · exact rangedOpened.le_final_of_mem_indices given (List.mem_iff_getElem?.2 ⟨offset, laid⟩)
  within given machine reached := by
    have rangedMachine := ranged.reached reached
    refine ⟨fun index member => rangedMachine.le_final_of_mem_indices given member,
      fun block called => ?_⟩
    obtain ⟨block, received, verdict⟩ := Machine.call?_eq_some_iff.1 called
    obtain ⟨-, more, -, place⟩ := Machine.received?_eq_some_iff.1 received
    obtain ⟨rfl, -⟩ := Engine.child_of_verdict verdict
    have within : Machine.Within around handler final machine 0 machine := .opened
    rw [place]
    exact rangedMachine.le_final_of_mem_indices given
      (List.mem_iff_getElem?.2 ⟨0, within.getElem?_indices more⟩)
  completes fuel last ended uncancelled := by
    obtain ⟨machine, reached, stepped⟩ := Machine.exists_reached_of_run ended
    have move := Machine.move_step around handler final machine
    rw [stepped] at move
    cases move with
    | stopped cancelled => cases uncancelled.symm.trans cancelled
    | finished spent natural finished =>
        exact (ranged.reached reached).next_eq_of_finished finished

/-- Whatever the remote node and the handler answer, a run keeps to its range, and if it ends well
without being cancelled it has come exactly to its end; without an end, it does not. -/
theorem sync_keeps_range {limit : Nat} {base engine : Engine} {seed : List Block} {world : σ}
    {begun : Machine σ}
    (built : engine = (base.withWindowLimit limit).withPastBlocks seed ∨
      engine = (base.withPastBlocks seed).withWindowLimit limit)
    (rising : seed.Pairwise fun older newer => older.id.index < newer.id.index)
    (settled : Machine.settle around start ⟨engine, 0, world⟩ = .running begun)
    (below : ∀ block ∈ seed, block.id.index < begun.engine.next) :
    InRange around handler final begun ∧
      ∀ fuel last, engine.sync around handler start final fuel world = (some (.ok ()), last) →
        around.cancelled last.world = false →
        final ≠ -1 ∧ last.engine.next.toInt = max begun.engine.next.toInt (final.toInt + 1) := by
  have inRange : InRange around handler final begun :=
    (Ranged.settled built rising settled below).inRange
  refine ⟨inRange, fun fuel last ended uncancelled => ?_⟩
  rw [Engine.sync, settled] at ended
  exact inRange.completes fuel last ended uncancelled

/-- A node with a chain of its own up to index 2. -/
def steadfast : Surroundings Unit where
  cancelled _ := false
  status _ := (some (.ok ⟨⟨2, "c"⟩, 0, ⟨0, "c"⟩, none, []⟩), ())
  block index _ _ := (some (.ok (some ⟨⟨index, "c"⟩, ⟨index - 1, "c"⟩, 0, [], none⟩)), ())
  rest _ _ := ()

/-- Both blocks of the seed are taken back, and the run still ends right after its end. -/
theorem sync_keeps_range_steadfast :
    ∃ last, seededEngine.sync steadfast willing 2 2 9 () = (some (.ok ()), last) ∧
      last.engine.next.toInt = 3 ∧
      InRange steadfast willing 2 ⟨{ seededEngine with next := 2 }, 0, ()⟩ := by
  have settled : Machine.settle steadfast 2 ⟨seededEngine, 0, ()⟩ =
      .running ⟨{ seededEngine with next := 2 }, 0, ()⟩ := rfl
  have kept : InRange steadfast willing 2 ⟨{ seededEngine with next := 2 }, 0, ()⟩ ∧ _ :=
    sync_keeps_range (Or.inl rfl) (by decide) settled (by decide)
  have ended : seededEngine.sync steadfast willing 2 2 9 () =
      (some (.ok ()), (seededEngine.sync steadfast willing 2 2 9 ()).2) := rfl
  exact ⟨_, ended, (kept.2 9 _ ended rfl).2, kept.1⟩

end ChainFollower.Sync
