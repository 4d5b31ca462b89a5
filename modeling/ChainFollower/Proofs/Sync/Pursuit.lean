import ChainFollower.Proofs.Sync.Agreement
import ChainFollower.Proofs.Sync.Calls

/-!
# Pursuing a remote chain

A run against a remote node that does not change ends with the chain of the node in the
store.  As long as there are strangers at the head of the store, or blocks of the remote
chain are missing between the head and the next index, blocks are taken back; from then
on they are only added.
-/

namespace ChainFollower.Sync

open Store (Holds)

variable {σ : Type} {scene : Scene σ} {remote : Int64 → Option Block}
  {genesis tip final : Int64} {low top : Int} {stale shared chain : List Block}
  {machine next : Machine σ}

/-- A round takes some indices, but not so many that indices run out of bits. -/
def Paced (engine : Engine) : Prop :=
  1 ≤ engine.concurrency.toNat ∧ engine.concurrency.toNat * 16 < 4611686018427387904

/-- The store holds strangers above blocks that agree with the remote chain up to an
index, and the round ends at the end of the run at most. -/
structure Approach (scene : Scene σ) (remote : Int64 → Option Block) (low : Int) (final : Int64)
    (stale shared : List Block) (top : Int) (machine : Machine σ) : Prop where
  lockstep : Lockstep scene (stale ++ shared) machine
  strangers : ∀ block ∈ stale, Stranger remote block
  agrees : Agrees remote low top shared
  lowest : low ≤ top
  natural : 0 ≤ machine.engine.next.toInt
  within : machine.engine.next.toInt + machine.remaining ≤ final.toInt + 1
  paced : Paced machine.engine

/-- The store agrees with the remote chain up to the next index. -/
def Clean (scene : Scene σ) (remote : Int64 → Option Block) (low : Int) (final : Int64)
    (chain : List Block) (machine : Machine σ) : Prop :=
  Approach scene remote low final [] chain machine.engine.next.toInt machine

/-- Some block has to be taken back. -/
structure Pending (scene : Scene σ) (remote : Int64 → Option Block) (low : Int) (final : Int64)
    (stale shared : List Block) (top : Int) (machine : Machine σ) : Prop
    extends Approach scene remote low final stale shared top machine where
  above : ∀ block ∈ stale, top ≤ block.id.index.toInt
  reached : top ≤ machine.engine.next.toInt
  behind : stale ≠ [] ∨ ∃ index block, remote index = some block ∧ top ≤ index.toInt ∧
    index.toInt < machine.engine.next.toInt
  founded : stale ++ shared ≠ []
  bottom : shared = [] → ∀ oldest ∈ stale.getLast?, oldest.id.index.toInt = top
  notPast : machine.engine.next ≤ final

/-- Some block has to be taken back, and the window reaches down to one that need not
be, or to the bottom of a store that has nothing in common with the remote chain. -/
structure Dirty (scene : Scene σ) (remote : Int64 → Option Block) (low : Int) (final : Int64)
    (stale shared : List Block) (top : Int) (machine : Machine σ) : Prop
    extends Approach scene remote low final stale shared top machine where
  above : ∀ block ∈ stale, top ≤ block.id.index.toInt
  reached : top ≤ machine.engine.next.toInt
  behind : stale ≠ [] ∨ ∃ index block, remote index = some block ∧ top ≤ index.toInt ∧
    index.toInt < machine.engine.next.toInt
  covered : stale.length < machine.engine.window.length ∨
    shared = [] ∧ stale ≠ [] ∧ stale.length ≤ machine.engine.window.length
  bottom : shared = [] → ∀ oldest ∈ stale.getLast?, oldest.id.index.toInt = top
  notPast : machine.engine.next ≤ final

/-! ## Runs that end -/

/-- The machine ends well, with the remote chain in the store. -/
def Converges (scene : Scene σ) (remote : Int64 → Option Block) (low : Int) (final : Int64)
    (machine : Machine σ) : Prop :=
  ∃ steps last, (∀ fuel, machine.run scene.around scene.handler final (steps + fuel) =
      (some (.ok ()), last)) ∧
    ∃ chain, (scene.shelf last.world).Keeps Holds chain ∧
      Agrees remote low (final.toInt + 1) chain

/-- The machine fails because a block is no child of the head, with a chain in the store. -/
def Stalls (scene : Scene σ) (final : Int64) (chain : List Block) (machine : Machine σ) : Prop :=
  ∃ block head steps last, head ∈ chain.head? ∧
    (∀ fuel, machine.run scene.around scene.handler final (steps + fuel) =
      (some (.error (additionFailure block
        (.notChildOfHead block.id.display head.id.display))), last)) ∧
    (scene.shelf last.world).Keeps Holds chain

theorem Stalls.step (stalls : Stalls scene final chain next)
    (stepped : machine.step scene.around scene.handler final = .running next) :
    Stalls scene final chain machine := by
  obtain ⟨block, head, steps, last, isHead, ran, keeps⟩ := stalls
  refine ⟨block, head, steps + 1, last, isHead, fun fuel => ?_, keeps⟩
  rw [Nat.add_right_comm, Machine.run, stepped]
  exact ran fuel

theorem Converges.step (converges : Converges scene remote low final next)
    (stepped : machine.step scene.around scene.handler final = .running next) :
    Converges scene remote low final machine := by
  obtain ⟨steps, last, ran, held⟩ := converges
  refine ⟨steps + 1, last, fun fuel => ?_, held⟩
  rw [Nat.add_right_comm, Machine.run, stepped]
  exact ran fuel

/-- A run that comes to a machine ends as that machine does. -/
theorem Converges.of_reached (converges : Converges scene remote low final next)
    (reached : Machine.Reached scene.around scene.handler final machine next) :
    Converges scene remote low final machine := by
  induction reached with
  | start => exact converges
  | step _ stepped ih => exact ih (converges.step stepped)

theorem Stalls.of_reached (stalls : Stalls scene final chain next)
    (reached : Machine.Reached scene.around scene.handler final machine next) :
    Stalls scene final chain machine := by
  induction reached with
  | start => exact stalls
  | step _ stepped ih => exact ih (stalls.step stepped)

/-- How far a machine is from the end, in steps. -/
def distance (final : Int64) (machine : Machine σ) : Nat :=
  2 * (final.toInt + 1 - machine.engine.next.toInt).toNat + if machine.remaining = 0 then 1 else 0

/-- A step past an index comes nearer to the end. -/
theorem distance_lt (nearer : next.engine.next.toInt = machine.engine.next.toInt + 1)
    (within : machine.engine.next.toInt ≤ final.toInt) :
    distance final next < distance final machine := by
  unfold distance
  rw [nearer]
  split <;> split <;> omega

/-- A new round comes nearer to the end. -/
theorem distance_lt_of_began {remaining : Nat} {world : σ} (round : machine.remaining = 0)
    (more : remaining ≠ 0) :
    distance final ⟨machine.engine, remaining, world⟩ < distance final machine := by
  unfold distance
  rw [if_neg more, if_pos round]
  exact Nat.lt_succ_self _

/-! ## Rounds -/

/-- A round has at least one index, and ends at the end of the run at most. -/
theorem roundSize_bounds {engine : Engine} {final : Int64} (natural : 0 ≤ engine.next.toInt)
    (ahead : engine.next ≤ final) (small : final.toInt < 4611686018427387904)
    (paced : Paced engine) :
    engine.roundSize final ≠ 0 ∧ engine.next.toInt + engine.roundSize final ≤ final.toInt + 1 := by
  have order := Int64.le_iff_toInt_le.1 ahead
  obtain ⟨takesSome, few⟩ := paced
  have product : (engine.concurrency * 16).toNat = engine.concurrency.toNat * 16 := by
    rw [UInt64.toNat_mul]
    exact Nat.mod_eq_of_lt (by change engine.concurrency.toNat * 16 < _; omega)
  have size : (engine.concurrency * 16).toInt64.toInt = engine.concurrency.toNat * 16 := by
    rw [Words.toInt_toInt64 (by omega), product]
    omega
  have sum : (engine.next + (engine.concurrency * 16).toInt64).toInt =
      engine.next.toInt + engine.concurrency.toNat * 16 := by
    rw [Words.toInt_add, size] <;> rw [size] <;> omega
  have bound : (engine.next + (engine.concurrency * 16).toInt64 - 1).toInt =
      engine.next.toInt + engine.concurrency.toNat * 16 - 1 := by
    rw [Words.toInt_sub, sum, Int64.toInt_one] <;> rw [sum, Int64.toInt_one] <;> omega
  unfold Engine.roundSize Engine.roundEnd
  rw [Words.toInt_min, bound]
  omega

/-- A new round keeps what is known about the chain. -/
theorem Approach.began (approach : Approach scene remote low final stale shared top machine)
    (ahead : machine.engine.next ≤ final) (small : final.toInt < 4611686018427387904) :
    Approach scene remote low final stale shared top
        ⟨machine.engine, machine.engine.roundSize final,
          (scene.around.status machine.world).2⟩ ∧
      machine.engine.roundSize final ≠ 0 := by
  have bounds := roundSize_bounds approach.natural ahead small approach.paced
  refine ⟨{ approach with lockstep := ?_, within := bounds.2 }, bounds.1⟩
  exact approach.lockstep.same (scene.shelf_status _) rfl
    (round_of_began (Int64.le_iff_toInt_le.2 approach.natural))

/-- Passing by an index keeps what is known about the chain. -/
theorem Approach.skipped (approach : Approach scene remote low final stale shared top machine)
    (small : final.toInt < 4611686018427387904) {left : Nat}
    (round : machine.remaining = left + 1) :
    machine.engine.skip.next.toInt = machine.engine.next.toInt + 1 ∧
      Approach scene remote low final stale shared top
        ⟨machine.engine.skip, left, machine.asked scene.around⟩ := by
  have natural := approach.natural
  have within := approach.within
  obtain ⟨successor, lockstep⟩ :=
    approach.lockstep.skip_of_lt round (scene.shelf_asked _) (by omega)
  refine ⟨successor, { approach with lockstep := lockstep, natural := ?_, within := ?_ }⟩
  · change 0 ≤ machine.engine.skip.next.toInt
    omega
  · change machine.engine.skip.next.toInt + left ≤ _
    omega

/-- Passing by an omitted index keeps the agreement. -/
theorem Clean.skipped (clean : Clean scene remote low final chain machine)
    (small : final.toInt < 4611686018427387904) {left : Nat} (round : machine.remaining = left + 1)
    (omitted : remote machine.engine.next = none) :
    Clean scene remote low final chain
      ⟨machine.engine.skip, left, machine.asked scene.around⟩ := by
  obtain ⟨successor, skipped⟩ := Approach.skipped clean small round
  have lowest := clean.lowest
  refine { skipped with agrees := ?_, lowest := ?_ }
  · change Agrees remote low machine.engine.skip.next.toInt chain
    rw [successor]
    exact clean.agrees.skip omitted
  · change low ≤ machine.engine.skip.next.toInt
    omega

/-- Adding the block of the remote chain keeps the agreement. -/
theorem Clean.push (clean : Clean scene remote low final chain machine) {block : Block}
    {left : Nat} {world : σ} (servable : Servable block) (round : machine.remaining = left + 1)
    (place : block.id.index = machine.engine.next)
    (found : remote machine.engine.next = some block)
    (keeps : (scene.shelf world).Keeps Holds (block :: chain)) :
    (machine.engine.push block.id).next.toInt = machine.engine.next.toInt + 1 ∧
      Clean scene remote low final (block :: chain)
        ⟨machine.engine.push block.id, left, world⟩ := by
  have lockstep : Lockstep scene chain machine := clean.lockstep
  have successor : (machine.engine.push block.id).next.toInt =
      machine.engine.next.toInt + 1 := by
    change (block.id.index + 1).toInt = _
    rw [place, Words.toInt_succ (next_lt_of_place servable place)]
  have natural := clean.natural
  have lowest := clean.lowest
  have within := clean.within
  refine ⟨successor, lockstep.push servable round place keeps, clean.strangers, ?_, ?_, ?_, ?_,
    clean.paced⟩
  · change Agrees remote low (machine.engine.push block.id).next.toInt (block :: chain)
    rw [successor]
    exact clean.agrees.push clean.lowest found
  · change low ≤ (machine.engine.push block.id).next.toInt
    omega
  · change 0 ≤ (machine.engine.push block.id).next.toInt
    omega
  · change (machine.engine.push block.id).next.toInt + left ≤ _
    omega

/-- Taking back the head keeps within the bounds of the run. -/
theorem Lockstep.pop_bounds {newest : Block} {older : List Block}
    (lockstep : Lockstep scene (newest :: older) machine)
    (within : machine.engine.next.toInt + machine.remaining ≤ final.toInt + 1) :
    0 ≤ newest.id.index.toInt ∧ newest.id.index.toInt + (0 : Nat) ≤ final.toInt + 1 := by
  have below := Int64.lt_iff_toInt_lt.1 (lockstep.ahead newest rfl)
  have proper := lockstep.proper newest List.mem_cons_self
  omega

/-- When a stranger is taken back, there is one less, or the store agrees. -/
theorem Pending.pop {stranger : Block} {rest : List Block} {world : σ}
    (pending : Pending scene remote low final (stranger :: rest) shared top machine)
    (keeps : (scene.shelf world).Keeps Holds (rest ++ shared)) :
    Pending scene remote low final rest shared top
        ⟨machine.engine.pop stranger.id, 0, world⟩ ∨
      Clean scene remote low final (rest ++ shared)
        ⟨machine.engine.pop stranger.id, 0, world⟩ := by
  have lockstep : Lockstep scene (stranger :: (rest ++ shared)) machine := pending.lockstep
  have bounds := lockstep.pop_bounds pending.within
  have below := Int64.lt_iff_toInt_lt.1 (lockstep.ahead stranger rfl)
  have past := Int64.le_iff_toInt_le.1 pending.notPast
  have aboveTop := pending.above stranger List.mem_cons_self
  have lowest := pending.lowest
  have approach : Approach scene remote low final rest shared top
      ⟨machine.engine.pop stranger.id, 0, world⟩ :=
    ⟨lockstep.pop keeps,
      fun block member => pending.strangers block (List.mem_cons_of_mem _ member),
      pending.agrees, lowest, bounds.1, bounds.2, pending.paced⟩
  by_cases behind : rest ≠ [] ∨ ∃ index block, remote index = some block ∧ top ≤ index.toInt ∧
      index.toInt < stranger.id.index.toInt
  · refine Or.inl ⟨approach,
      fun block member => pending.above block (List.mem_cons_of_mem _ member), aboveTop, behind,
      fun none => ?_, fun empty oldest isOldest => ?_, ?_⟩
    · -- Above the bottom of the store there would be no room for a missing block.
      obtain ⟨rfl, rfl⟩ := List.append_eq_nil_iff.1 none
      have bottom := pending.bottom rfl stranger rfl
      rcases behind with more | ⟨index, block, -, above, less⟩
      · exact more rfl
      · omega
    · cases rest with
      | nil => cases isOldest
      | cons lower rest => exact pending.bottom empty oldest (by rwa [List.getLast?_cons_cons])
    · change stranger.id.index ≤ final
      rw [Int64.le_iff_toInt_le]
      omega
  · obtain ⟨noRest, omitted⟩ := not_or.1 behind
    have none := not_not.1 noRest
    subst none
    refine Or.inr { approach with agrees := ?_, lowest := ?_ }
    · refine pending.agrees.extend aboveTop fun index above less => ?_
      cases found : remote index with
      | none => rfl
      | some block => exact absurd ⟨index, block, found, above, less⟩ omitted
    · change low ≤ stranger.id.index.toInt
      omega

/-- A window that reaches down far enough is not empty. -/
theorem Dirty.toPending (dirty : Dirty scene remote low final stale shared top machine) :
    Pending scene remote low final stale shared top machine := by
  refine { dirty with founded := fun none => ?_ }
  obtain ⟨rfl, rfl⟩ := List.append_eq_nil_iff.1 none
  have window := dirty.lockstep.window
  rcases dirty.covered with some | ⟨-, some, -⟩
  · rw [List.prefix_nil.1 window] at some
    exact absurd some (Nat.lt_irrefl 0)
  · exact some rfl

/-- A run to an index with a block, against a remote node that does not change. -/
structure Pursuit (scene : Scene σ) (remote : Int64 → Option Block) (genesis tip final : Int64) :
    Prop where
  rules : RemoteChain remote genesis tip
  fixed : scene.Fixed remote genesis tip
  target : ∃ block, remote final = some block

namespace Pursuit

variable (pursuit : Pursuit scene remote genesis tip final)

include pursuit

theorem natural : genesis ≤ final := by
  obtain ⟨block, found⟩ := pursuit.target
  exact (pursuit.rules.place found).2.1

theorem given : final ≠ -1 := by
  rintro rfl
  exact absurd (Int64.le_trans pursuit.rules.natural pursuit.natural) (by decide)

theorem within : final ≤ tip := by
  obtain ⟨block, found⟩ := pursuit.target
  exact (pursuit.rules.place found).2.2

theorem small : final.toInt < 4611686018427387904 :=
  Int.lt_of_le_of_lt (Int64.le_iff_toInt_le.1 pursuit.within) pursuit.rules.small

/-! ## Adding -/

/-- Where the store agrees with the remote chain up to the next block, the block is
added. -/
theorem step_clean {block : Block} {left : Nat}
    (clean : Clean scene remote low final chain machine) (round : machine.remaining = left + 1)
    (found : remote machine.engine.next = some block) :
    ∃ next, machine.step scene.around scene.handler final = .running next ∧
      next.engine.next.toInt = machine.engine.next.toInt + 1 ∧
      Clean scene remote low final (block :: chain) next := by
  have lockstep : Lockstep scene chain machine := clean.lockstep
  have servable := pursuit.rules.servable found
  have place := (pursuit.rules.place found).1
  have orderly := lockstep.keeps.kept.toOrderly
  have child : ∀ head ∈ chain.head?, block.parent = head.id := by
    intro head isHead
    cases chain with
    | nil => cases isHead
    | cons newest older =>
        cases isHead
        exact clean.agrees.parent_eq pursuit.rules orderly found
  cases lockstep.addition servable place with
  | granted _ granted keeps =>
      refine ⟨_, pursuit.fixed.step_added pursuit.rules round found ?_ granted,
        clean.push servable round place found keeps⟩
      intro last newest
      obtain ⟨head, older, rfl, rfl⟩ := lockstep.exists_newest newest
      exact child head rfl
  | refused cause reason result keeps same =>
      rcases reason with ⟨-, stored⟩ | ⟨head, isHead, other, -⟩
      · -- A stored block of this hash would be this one, above itself.
        obtain ⟨twin, member, sameHash⟩ := List.mem_map.1 stored
        obtain ⟨index, -, below, foundTwin⟩ := (clean.agrees twin).1 member
        have equal := pursuit.rules.distinct foundTwin found sameHash
        rw [← (pursuit.rules.place foundTwin).1, equal, place] at below
        exact absurd below (Int.lt_irrefl _)
      · exact absurd (child head isHead) other

/-- Once the store agrees with the remote chain past the end, the run is over. -/
theorem converges_of_passed (clean : Clean scene remote low final chain machine)
    (round : machine.remaining = 0) (passed : final < machine.engine.next) :
    Converges scene remote low final machine := by
  have natural : 0 ≤ machine.engine.next := Int64.le_iff_toInt_le.2 clean.natural
  have finished := pursuit.fixed.step_finished pursuit.rules round natural pursuit.given
    pursuit.within passed
  refine ⟨1, machine.moved (scene.around.status machine.world).2, fun fuel => ?_, chain, ?_, ?_⟩
  · rw [Nat.add_comm, Machine.run, finished]
  · exact (scene.shelf_status _).symm ▸ clean.lockstep.keeps
  · have past := Int64.lt_iff_toInt_lt.1 passed
    have within := clean.within
    have last : final.toInt + 1 = machine.engine.next.toInt := by omega
    rw [last]
    exact clean.agrees

/-- Once the store agrees with the remote chain, the run ends well. -/
theorem converges_of_clean (clean : Clean scene remote low final chain machine) :
    Converges scene remote low final machine := by
  induction size : distance final machine using Nat.strong_induction_on
    generalizing chain machine with
  | h size ih =>
      subst size
      have within := clean.within
      cases round : machine.remaining with
      | zero =>
          have natural : 0 ≤ machine.engine.next := Int64.le_iff_toInt_le.2 clean.natural
          by_cases ahead : machine.engine.next ≤ final
          · obtain ⟨began, more⟩ := Approach.began clean ahead pursuit.small
            have cleanNext : Clean scene remote low final chain
                ⟨machine.engine, machine.engine.roundSize final,
                  (scene.around.status machine.world).2⟩ := began
            exact (ih _ (distance_lt_of_began round more) cleanNext rfl).step
              (pursuit.fixed.step_began pursuit.rules round natural pursuit.given pursuit.within
                ahead)
          · exact pursuit.converges_of_passed clean round (Int64.not_le.1 ahead)
      | succ left =>
          cases found : remote machine.engine.next with
          | none =>
              obtain ⟨successor, -⟩ := Approach.skipped clean pursuit.small round
              have nearer : distance final ⟨machine.engine.skip, left, machine.asked scene.around⟩ <
                  distance final machine := distance_lt successor (by omega)
              exact (ih _ nearer (clean.skipped pursuit.small round found) rfl).step
                (pursuit.fixed.step_skipped round found)
          | some block =>
              obtain ⟨next, stepped, successor, cleanNext⟩ :=
                pursuit.step_clean clean round found
              exact (ih _ (distance_lt successor (by omega)) cleanNext rfl).step stepped

/-! ## Taking back -/

/-- While something has to be taken back, the next block is no child of the head. -/
theorem parent_ne (pending : Pending scene remote low final stale shared top machine)
    {block head : Block} (found : remote machine.engine.next = some block)
    (isHead : head ∈ (stale ++ shared).head?) : block.parent ≠ head.id := by
  cases stale with
  | cons stranger rest =>
      cases isHead
      exact (pending.strangers head List.mem_cons_self).parent_ne pursuit.rules found
  | nil =>
      obtain ⟨older, rfl⟩ := List.head?_eq_some_iff.1 isHead
      rcases pending.behind with strangers | ⟨index, missing, foundMissing, above, less⟩
      · exact absurd rfl strangers
      · exact pending.agrees.parent_ne pursuit.rules foundMissing above
          (Int64.lt_iff_toInt_lt.2 less) found

/-- When a block in common is taken back, the store agrees up to that block. -/
theorem clean_of_pop {newest : Block} {older : List Block} {world : σ}
    (pending : Pending scene remote low final [] (newest :: older) top machine)
    (keeps : (scene.shelf world).Keeps Holds older) :
    Clean scene remote low final older ⟨machine.engine.pop newest.id, 0, world⟩ := by
  have lockstep : Lockstep scene (newest :: older) machine := pending.lockstep
  have bounds := lockstep.pop_bounds pending.within
  obtain ⟨index, above, -, found⟩ := (pending.agrees newest).1 List.mem_cons_self
  refine ⟨lockstep.pop keeps, fun _ none => (nomatch none),
    pending.agrees.pop pursuit.rules lockstep.keeps.kept.toOrderly, ?_, bounds.1, bounds.2,
    pending.paced⟩
  change low ≤ newest.id.index.toInt
  rwa [(pursuit.rules.place found).1]

/-- While something has to be taken back, the run comes to an index with a block. -/
theorem exists_reached (pending : Pending scene remote low final stale shared top machine) :
    ∃ arrived left block, Machine.Reached scene.around scene.handler final machine arrived ∧
      Pending scene remote low final stale shared top arrived ∧
      arrived.engine.window = machine.engine.window ∧ arrived.remaining = left + 1 ∧
      remote arrived.engine.next = some block := by
  induction size : distance final machine using Nat.strong_induction_on
    generalizing machine with
  | h size ih =>
      subst size
      have notPast := Int64.le_iff_toInt_le.1 pending.notPast
      cases round : machine.remaining with
      | zero =>
          have natural : 0 ≤ machine.engine.next := Int64.le_iff_toInt_le.2 pending.natural
          obtain ⟨began, more⟩ := pending.toApproach.began pending.notPast pursuit.small
          obtain ⟨arrived, left, block, reached, rest⟩ :=
            ih _ (distance_lt_of_began round more) { pending with toApproach := began } rfl
          exact ⟨arrived, left, block, reached.of_step (pursuit.fixed.step_began pursuit.rules
            round natural pursuit.given pursuit.within pending.notPast), rest⟩
      | succ left =>
          cases found : remote machine.engine.next with
          | none =>
              obtain ⟨successor, skipped⟩ := pending.toApproach.skipped pursuit.small round
              have reached := pending.reached
              have notEnd : machine.engine.next.toInt ≠ final.toInt := by
                intro same
                obtain ⟨block, target⟩ := pursuit.target
                rw [Int64.toInt_inj.1 same, target] at found
                cases found
              have nearer : distance final ⟨machine.engine.skip, left, machine.asked scene.around⟩ <
                  distance final machine := distance_lt successor notPast
              have pendingNext : Pending scene remote low final stale shared top
                  ⟨machine.engine.skip, left, machine.asked scene.around⟩ := by
                refine ⟨skipped, pending.above, ?_, ?_, pending.founded, pending.bottom, ?_⟩
                · change top ≤ machine.engine.skip.next.toInt
                  omega
                · rcases pending.behind with more | ⟨index, block, foundBlock, above, less⟩
                  · exact Or.inl more
                  · refine Or.inr ⟨index, block, foundBlock, above, ?_⟩
                    change index.toInt < machine.engine.skip.next.toInt
                    omega
                · change machine.engine.skip.next ≤ final
                  rw [Int64.le_iff_toInt_le]
                  omega
              obtain ⟨arrived, left, block, reached, rest⟩ := ih _ nearer pendingNext rfl
              exact ⟨arrived, left, block,
                reached.of_step (pursuit.fixed.step_skipped round found), rest⟩
          | some block => exact ⟨machine, left, block, .start, pending, rfl, round, found⟩

/-- While something has to be taken back, the next block is not stored. -/
theorem hash_notMem (pending : Pending scene remote low final stale shared top machine)
    {block : Block} (found : remote machine.engine.next = some block) :
    block.id.hash ∉ (stale ++ shared).map (·.id.hash) := by
  intro stored
  obtain ⟨twin, member, same⟩ := List.mem_map.1 stored
  rcases List.mem_append.1 member with member | member
  · exact pending.strangers twin member _ block found same
  · obtain ⟨index, -, below, foundTwin⟩ := (pending.agrees twin).1 member
    have reached := pending.reached
    have equal := pursuit.rules.distinct foundTwin found same
    rw [← (pursuit.rules.place foundTwin).1, equal, (pursuit.rules.place found).1] at below
    omega

/-- Without a window, the next block is handed over and refused. -/
theorem stalls_of_windowless (pending : Pending scene remote low final stale shared top machine)
    {left : Nat} {block : Block} (round : machine.remaining = left + 1)
    (found : remote machine.engine.next = some block) (empty : machine.engine.window = []) :
    Stalls scene final (stale ++ shared) machine := by
  have place := (pursuit.rules.place found).1
  have received : machine.received? scene.around = some block :=
    Machine.received?_eq_some_iff.2 ⟨pursuit.fixed.uncancelled _, by omega,
      found ▸ pursuit.fixed.block _ _ _, place⟩
  have called : machine.call? scene.around = some (.added block) := by
    refine Machine.call?_eq_some_iff.2 ⟨block, received, Engine.verdict_of_child ?_⟩
    rw [empty]
    exact fun _ none => nomatch none
  obtain ⟨head, older, chain⟩ := List.exists_cons_of_ne_nil pending.founded
  have isHead : head ∈ (stale ++ shared).head? := congrArg List.head? chain
  cases pending.lockstep.addition (pursuit.rules.servable found) place with
  | granted child granted keeps =>
      exact absurd (child head isHead) (pursuit.parent_ne pending found isHead)
  | refused cause reason refused keeps same =>
      rcases reason with ⟨-, stored⟩ | ⟨refuser, isRefuser, -, rfl⟩
      · exact absurd stored (pursuit.hash_notMem pending found)
      · refine ⟨block, refuser, 1,
          machine.moved (scene.handler.added block (machine.asked scene.around)).2, isRefuser,
          fun fuel => ?_, keeps⟩
        rw [Nat.add_comm]
        exact Machine.run_of_ended (Machine.step_of_refused called refused) fuel

/-- Otherwise the head is the last block of the window, and is taken back. -/
theorem step_pending {newest : Block} {older : List Block}
    (pending : Pending scene remote low final stale shared top machine)
    (chain : stale ++ shared = newest :: older) {left : Nat} {block : Block}
    (round : machine.remaining = left + 1) (found : remote machine.engine.next = some block)
    (some : machine.engine.window ≠ []) :
    ∃ world, machine.step scene.around scene.handler final =
        .running ⟨machine.engine.pop newest.id, 0, world⟩ ∧
      (scene.shelf world).Keeps Holds older := by
  obtain ⟨last, rest, window⟩ := List.exists_cons_of_ne_nil some
  have isLast : machine.engine.window.head? = .some last := congrArg List.head? window
  have lockstep := pending.lockstep
  rw [chain] at lockstep
  obtain ⟨head, below, same, rfl⟩ := lockstep.exists_newest isLast
  cases same
  have other := pursuit.parent_ne pending found (by rw [chain]; rfl)
  obtain ⟨granted, keeps⟩ := lockstep.removal
  exact ⟨_, pursuit.fixed.step_removed pursuit.rules round found isLast other granted, keeps⟩

/-- While something has to be taken back, the run comes to take back the head, or fails for
want of a window. -/
theorem stalls_or_pops {newest : Block} {older : List Block}
    (pending : Pending scene remote low final stale shared top machine)
    (chain : stale ++ shared = newest :: older) :
    machine.engine.window = [] ∧ Stalls scene final (stale ++ shared) machine ∨
      ∃ arrived world, Pending scene remote low final stale shared top arrived ∧
        arrived.engine.window = machine.engine.window ∧ machine.engine.window ≠ [] ∧
        Machine.Reached scene.around scene.handler final machine
          ⟨arrived.engine.pop newest.id, 0, world⟩ ∧
        (scene.shelf world).Keeps Holds older := by
  obtain ⟨arrived, left, block, reached, pendingArrived, window, round, found⟩ :=
    pursuit.exists_reached pending
  by_cases empty : arrived.engine.window = []
  · exact Or.inl ⟨window ▸ empty,
      (pursuit.stalls_of_windowless pendingArrived round found empty).of_reached reached⟩
  · obtain ⟨world, stepped, keeps⟩ := pursuit.step_pending pendingArrived chain round found empty
    exact Or.inr ⟨arrived, world, pendingArrived, window, window ▸ empty,
      reached.step stepped, keeps⟩

/-- As long as something has to be taken back, the run goes on to do so.  It converges, or
takes back just the blocks of its window and then fails. -/
theorem converges_or_stalls (pending : Pending scene remote low final stale shared top machine) :
    Converges scene remote low final machine ∨
      ∃ taken left, stale = taken ++ left ∧ taken.length = machine.engine.window.length ∧
        Stalls scene final (left ++ shared) machine := by
  induction stale generalizing machine with
  | nil =>
      obtain ⟨newest, older, chain⟩ := List.exists_cons_of_ne_nil pending.founded
      cases chain
      rcases pursuit.stalls_or_pops pending rfl with
        ⟨empty, stalls⟩ | ⟨arrived, world, pendingArrived, -, -, reached, keeps⟩
      · exact Or.inr ⟨[], [], rfl, empty ▸ rfl, stalls⟩
      · have clean := pursuit.clean_of_pop pendingArrived keeps
        exact Or.inl ((pursuit.converges_of_clean clean).of_reached reached)
  | cons stranger rest ih =>
      rcases pursuit.stalls_or_pops pending rfl with
        ⟨empty, stalls⟩ | ⟨arrived, world, pendingArrived, window, some, reached, keeps⟩
      · exact Or.inr ⟨[], stranger :: rest, rfl, empty ▸ rfl, stalls⟩
      · rcases pendingArrived.pop keeps with pendingNext | clean
        · rcases ih pendingNext with converges | ⟨taken, left, rfl, length, stalls⟩
          · exact Or.inl (converges.of_reached reached)
          · refine Or.inr ⟨stranger :: taken, left, rfl, ?_, stalls.of_reached reached⟩
            have nonempty := List.length_pos_iff.2 some
            change _ = arrived.engine.window.tail.length at length
            rw [List.length_tail, window] at length
            rw [List.length_cons, length]
            omega
        · exact Or.inl ((pursuit.converges_of_clean clean).of_reached reached)

/-- If the window reaches down far enough, the run converges. -/
theorem converges_of_dirty (dirty : Dirty scene remote low final stale shared top machine) :
    Converges scene remote low final machine := by
  rcases pursuit.converges_or_stalls dirty.toPending with
    converges | ⟨taken, left, rfl, length, block, head, steps, last, isHead, -⟩
  · exact converges
  · have covered := dirty.covered
    rw [List.length_append, length] at covered
    rcases covered with deeper | ⟨rfl, -, reaches⟩
    · omega
    · obtain rfl : left = [] := List.length_eq_zero_iff.1 (by omega)
      cases isHead

end Pursuit

end ChainFollower.Sync
