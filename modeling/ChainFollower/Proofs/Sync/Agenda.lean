import ChainFollower.Proofs.Sync.Convergence
import ChainFollower.Proofs.Sync.Resumption

/-!
# What is left to decide

Where neither the store nor the remote chain omits an index, the decisions that are left to
a run depend on the store only: strangers are taken back, and then the remote chain is added
through the end.  Each decision of a run is the first of those that are left.
-/

namespace ChainFollower.Sync

open Store (Holds Worker)
open Scene (followingIndex toInt_followingIndex)

variable {σ : Type} {scene : Scene σ} {remote : Int64 → Option Block}
  {genesis tip final : Int64} {stale shared rest chain older : List Block}
  {block newest stranger : Block} {machine next : Machine σ}

/-! ## Chains without gaps -/

/-- Blocks at consecutive indices from the first one on, newest first. -/
def Contiguous (genesis : Int64) : List Block → Prop
  | [] => True
  | newest :: older => newest.id.index = followingIndex genesis older ∧ Contiguous genesis older

/-- Further blocks do not lead to a lower index. -/
theorem Contiguous.le_append (contiguous : Contiguous genesis (stale ++ shared))
    (proper : ∀ block ∈ stale ++ shared, block.id.index.toInt < 9223372036854775807) :
    (followingIndex genesis shared).toInt ≤ (followingIndex genesis (stale ++ shared)).toInt := by
  induction stale with
  | nil => exact Int.le_refl _
  | cons newest rest ih =>
      obtain ⟨place, contiguousRest⟩ := contiguous
      have lower := ih contiguousRest fun block member =>
        proper block (List.mem_cons_of_mem _ member)
      rw [List.cons_append, toInt_followingIndex _ _ (proper newest List.mem_cons_self), place]
      exact Int.le_add_one lower

/-- The index after them is not below the first one. -/
theorem Contiguous.le_followingIndex {blocks : List Block} (contiguous : Contiguous genesis blocks)
    (proper : ∀ block ∈ blocks, block.id.index.toInt < 9223372036854775807) :
    genesis.toInt ≤ (followingIndex genesis blocks).toInt := by
  rw [← List.append_nil blocks] at contiguous proper ⊢
  exact contiguous.le_append proper

/-- Blocks above others are not below the index after those. -/
theorem Contiguous.le_of_mem (contiguous : Contiguous genesis (stale ++ shared))
    (proper : ∀ block ∈ stale ++ shared, block.id.index.toInt < 9223372036854775807)
    (member : block ∈ stale) : (followingIndex genesis shared).toInt ≤ block.id.index.toInt := by
  induction stale with
  | nil => cases member
  | cons newest rest ih =>
      obtain ⟨place, contiguousRest⟩ := contiguous
      have properRest := fun block member => proper block (List.mem_cons_of_mem newest member)
      rcases List.mem_cons.1 member with rfl | member
      · rw [place]
        exact Contiguous.le_append contiguousRest properRest
      · exact ih contiguousRest properRest member

/-- The oldest of them is at the first index. -/
theorem Contiguous.founded {blocks : List Block} (contiguous : Contiguous genesis blocks)
    {oldest : Block} (isOldest : oldest ∈ blocks.getLast?) : oldest.id.index = genesis := by
  induction blocks with
  | nil => cases isOldest
  | cons newest older ih =>
      obtain ⟨place, contiguousOlder⟩ := contiguous
      cases older with
      | nil =>
          cases isOldest
          exact place
      | cons lower older => exact ih contiguousOlder (by rwa [List.getLast?_cons_cons] at isOldest)

/-- As many of them as there are can be found at the highest indices. -/
theorem Contiguous.length_blocksWithin {blocks : List Block}
    (contiguous : Contiguous genesis blocks)
    (proper : ∀ block ∈ blocks, block.id.index.toInt < 9223372036854775807) (count : Nat)
    {stop : Int} (above : (followingIndex genesis blocks).toInt ≤ stop) :
    min count blocks.length ≤
      (Store.blocksWithin ((followingIndex genesis blocks).toInt - count) stop blocks).length := by
  induction blocks generalizing count with
  | nil => exact Nat.min_le_right count 0
  | cons newest older ih =>
      obtain ⟨place, contiguousOlder⟩ := contiguous
      have successor : (followingIndex genesis (newest :: older)).toInt =
          (followingIndex genesis older).toInt + 1 := by
        rw [toInt_followingIndex _ _ (proper newest List.mem_cons_self), place]
      cases count with
      | zero => exact (Nat.min_le_left 0 _).trans (Nat.zero_le _)
      | succ count =>
          have fewer := ih contiguousOlder
            (fun block member => proper block (List.mem_cons_of_mem _ member)) count (by omega)
          have first : (followingIndex genesis (newest :: older)).toInt - (count + 1 : Nat) =
              (followingIndex genesis older).toInt - count := by
            omega
          rw [first, Store.blocksWithin_cons, if_pos (by rw [place]; omega), List.length_cons,
            List.length_cons]
          omega

/-- A window has as many of them as there are, up to its limit. -/
theorem Contiguous.length_window {blocks : List Block} (contiguous : Contiguous genesis blocks)
    (proper : ∀ block ∈ blocks, block.id.index.toInt < 9223372036854775807)
    (follower : Follower) {cacheSize : UInt64}
    (takes : Engine.defaultWindowLimit ≤ cacheSize.toNat) :
    min Engine.defaultWindowLimit blocks.length ≤
      (startEngine follower cacheSize blocks).window.length := by
  rw [startEngine_window, List.length_take, List.length_map]
  cases blocks with
  | nil => exact Nat.min_le_right _ 0
  | cons newest older =>
      have successor := toInt_followingIndex genesis older (proper newest List.mem_cons_self)
      have found := contiguous.length_blocksWithin proper cacheSize.toNat
        (Int.le_of_eq successor)
      have first : newest.id.index.toInt - cacheSize.toNat + 1 =
          (followingIndex genesis (newest :: older)).toInt - cacheSize.toNat := by
        omega
      rw [Store.newestOf, first]
      omega

/-- The remote chain omits no index, and the run has an end within it. -/
structure Unbroken (remote : Int64 → Option Block) (genesis tip final : Int64) : Prop where
  rules : RemoteChain remote genesis tip
  whole : ∀ index, genesis ≤ index → index ≤ tip → ∃ block, remote index = some block
  given : final ≠ -1
  within : final ≤ tip

namespace Unbroken

variable (unbroken : Unbroken remote genesis tip final)

include unbroken

theorem small : final.toInt < 4611686018427387904 :=
  Int.lt_of_le_of_lt (Int64.le_iff_toInt_le.1 unbroken.within) unbroken.rules.small

theorem natural : 0 ≤ genesis.toInt :=
  Int64.le_iff_toInt_le.1 unbroken.rules.natural

/-- No index up to the end is omitted. -/
theorem exists_block {index : Int64} (lower : genesis.toInt ≤ index.toInt)
    (upper : index.toInt ≤ final.toInt) : ∃ block, remote index = some block :=
  unbroken.whole index (Int64.le_iff_toInt_le.2 lower)
    (Int64.le_trans (Int64.le_iff_toInt_le.2 upper) unbroken.within)

end Unbroken

/-! ## Decisions that are left -/

/-- The blocks of the remote chain at some indices, from one on. -/
def stretch (remote : Int64 → Option Block) (first : Int64) : (count : Nat) → List Block
  | 0 => []
  | count + 1 => (remote first).toList ++ stretch remote (first + 1) count

/-- The decisions that are left to a run through `final`. -/
def agenda (remote : Int64 → Option Block) (genesis final : Int64) (stale shared : List Block) :
    List Call :=
  stale.map (fun block => .removed block.id) ++
    (stretch remote (followingIndex genesis shared)
      (final.toInt + 1 - (followingIndex genesis shared).toInt).toNat).map .added

/-- How a store stands to a remote chain: strangers above blocks that agree with it, without
gaps and not beyond the end. -/
structure Standing (remote : Int64 → Option Block) (genesis final : Int64)
    (stale shared : List Block) : Prop where
  strangers : ∀ block ∈ stale, Stranger remote block
  agrees : Agrees remote genesis.toInt (followingIndex genesis shared).toInt shared
  contiguous : Contiguous genesis (stale ++ shared)
  within : (followingIndex genesis (stale ++ shared)).toInt ≤ max genesis.toInt (final.toInt + 1)
  notPast : stale ≠ [] → (followingIndex genesis (stale ++ shared)).toInt ≤ final.toInt

/-- Past the end, nothing is left. -/
theorem agenda_eq_nil (passed : final < followingIndex genesis shared) :
    agenda remote genesis final [] shared = [] := by
  have order := Int64.lt_iff_toInt_lt.1 passed
  have none : (final.toInt + 1 - (followingIndex genesis shared).toInt).toNat = 0 := by omega
  rw [agenda, none]
  rfl

/-- Up to the end, the next block of the remote chain is added. -/
theorem agenda_eq_cons (unbroken : Unbroken remote genesis tip final)
    (found : remote (followingIndex genesis shared) = some block)
    (reached : (followingIndex genesis shared).toInt ≤ final.toInt) :
    agenda remote genesis final [] shared =
      .added block :: agenda remote genesis final [] (block :: shared) := by
  have small := unbroken.small
  have place := (unbroken.rules.place found).1
  have successor : (followingIndex genesis shared + 1).toInt =
      (followingIndex genesis shared).toInt + 1 := Words.toInt_succ (by omega)
  have count : (final.toInt + 1 - (followingIndex genesis shared).toInt).toNat =
      (final.toInt + 1 - (followingIndex genesis shared + 1).toInt).toNat + 1 := by
    omega
  have after : followingIndex genesis (block :: shared) = followingIndex genesis shared + 1 := by
    rw [followingIndex, place]
  rw [agenda, agenda, after, count, stretch, found]
  rfl

namespace Standing

/-- A block that agrees is not below the first index. -/
theorem lowest (standing : Standing remote genesis final stale shared) :
    genesis.toInt ≤ (followingIndex genesis shared).toInt := by
  cases shared with
  | nil => exact Int.le_refl _
  | cons newest older =>
      obtain ⟨index, above, below, -⟩ := (standing.agrees newest).1 List.mem_cons_self
      omega

/-- A stranger has its place below the next index. -/
theorem pop (standing : Standing remote genesis final (stranger :: stale) shared)
    (proper : stranger.id.index.toInt < 9223372036854775807) :
    Standing remote genesis final stale shared := by
  obtain ⟨place, contiguous⟩ := standing.contiguous
  have notPast := standing.notPast (List.cons_ne_nil _ _)
  rw [List.cons_append, toInt_followingIndex _ _ proper] at notPast
  change stranger.id.index = followingIndex genesis (stale ++ shared) at place
  refine ⟨fun block member => standing.strangers block (List.mem_cons_of_mem _ member),
    standing.agrees, contiguous, ?_, fun _ => ?_⟩
  · rw [← place]
    omega
  · rw [← place]
    omega

/-- The next block of the remote chain agrees. -/
theorem push (standing : Standing remote genesis final [] shared)
    (unbroken : Unbroken remote genesis tip final)
    (found : remote (followingIndex genesis shared) = some block)
    (reached : (followingIndex genesis shared).toInt ≤ final.toInt) :
    Standing remote genesis final [] (block :: shared) := by
  have small := unbroken.small
  have place := (unbroken.rules.place found).1
  have successor : (followingIndex genesis (block :: shared)).toInt =
      (followingIndex genesis shared).toInt + 1 := by
    rw [followingIndex, place]
    exact Words.toInt_succ (by omega)
  refine ⟨fun _ none => (nomatch none), ?_, ⟨place, standing.contiguous⟩, ?_,
    fun none => absurd rfl none⟩
  · rw [successor]
    exact standing.agrees.push standing.lowest found
  · change (followingIndex genesis (block :: shared)).toInt ≤ _
    omega

end Standing

/-! ## Steps -/

/-- A run goes on after a store, within the end. -/
structure Underway (scene : Scene σ) (remote : Int64 → Option Block) (genesis final : Int64)
    (stale shared : List Block) (machine : Machine σ) : Prop
    extends Lockstep scene (stale ++ shared) machine,
      Standing remote genesis final stale shared where
  next_eq : machine.engine.next = followingIndex genesis (stale ++ shared)
  bounded : machine.remaining ≠ 0 →
    machine.engine.next.toInt + machine.remaining ≤ final.toInt + 1

/-- The outcomes of a step of such a run against a faithful node. -/
inductive Advance (scene : Scene σ) (remote : Int64 → Option Block) (genesis final : Int64)
    (stale shared : List Block) (machine : Machine σ) : Progress σ → Prop
  | stopped {last : Machine σ} (cancelled : scene.around.cancelled machine.world = true)
      (silent : machine.call? scene.around = none)
      (keeps : (scene.shelf last.world).Keeps Holds (stale ++ shared)) :
      Advance scene remote genesis final stale shared machine (.ended (.ok ()) last)
  | finished {last : Machine σ} (silent : machine.call? scene.around = none)
      (passed : stale = [] ∧ final < followingIndex genesis shared)
      (keeps : (scene.shelf last.world).Keeps Holds (stale ++ shared)) :
      Advance scene remote genesis final stale shared machine (.ended (.ok ()) last)
  /-- The window does not reach down to the strangers that are left. -/
  | stalled {error : SyncError} {last : Machine σ} (empty : machine.engine.window = [])
      (more : stale ≠ []) :
      Advance scene remote genesis final stale shared machine (.ended (.error error) last)
  | waited {next : Machine σ} (silent : machine.call? scene.around = none)
      (underway : Underway scene remote genesis final stale shared next)
      (window : next.engine.window = machine.engine.window) :
      Advance scene remote genesis final stale shared machine (.running next)
  | removed {stranger : Block} {rest : List Block} {next : Machine σ}
      (split : stale = stranger :: rest)
      (called : machine.call? scene.around = some (.removed stranger.id))
      (underway : Underway scene remote genesis final rest shared next)
      (window : machine.engine.window.length = next.engine.window.length + 1) :
      Advance scene remote genesis final stale shared machine (.running next)
  | added {block : Block} {next : Machine σ} (none : stale = [])
      (called : machine.call? scene.around = some (.added block))
      (left : agenda remote genesis final [] shared =
        .added block :: agenda remote genesis final [] (block :: shared))
      (underway : Underway scene remote genesis final [] (block :: shared) next) :
      Advance scene remote genesis final stale shared machine (.running next)

namespace Underway

variable (underway : Underway scene remote genesis final stale shared machine)

include underway

/-- The same engine over the same shelf is still underway. -/
theorem same (shelf : scene.shelf next.world = scene.shelf machine.world)
    (engine : next.engine = machine.engine)
    (bounded : next.remaining ≠ 0 →
      machine.engine.next.toInt + next.remaining ≤ final.toInt + 1)
    (round : next.remaining ≠ 0 → 0 ≤ machine.engine.next.toInt ∧
      machine.engine.next.toInt + next.remaining ≤ 9223372036854775808) :
    Underway scene remote genesis final stale shared next where
  toLockstep := underway.toLockstep.same shelf engine round
  toStanding := underway.toStanding
  next_eq := engine ▸ underway.next_eq
  bounded := engine ▸ bounded

/-- The next index is not below the first one. -/
theorem lower : genesis.toInt ≤ machine.engine.next.toInt := by
  rw [underway.next_eq]
  exact underway.contiguous.le_followingIndex fun block member => (underway.proper block member).2

variable (unbroken : Unbroken remote genesis tip final)

include unbroken

/-- The next block of the remote chain is not stored. -/
theorem hash_notMem (found : remote machine.engine.next = some block) :
    block.id.hash ∉ (stale ++ shared).map (·.id.hash) := by
  intro stored
  obtain ⟨twin, member, same⟩ := List.mem_map.1 stored
  have orderly := underway.keeps.kept.toOrderly
  have below := orderly.lt_of_lt_head underway.ahead twin member
  rcases List.mem_append.1 member with member | member
  · exact underway.strangers twin member _ block found same
  · obtain ⟨index, -, -, foundTwin⟩ := (underway.agrees twin).1 member
    have equal := unbroken.rules.distinct foundTwin found same
    rw [equal, (unbroken.rules.place found).1] at below
    exact Int64.lt_irrefl below

variable (faithful : scene.Faithful remote genesis tip)

include faithful

/-- A step without a call changes nothing. -/
theorem advance_silent (silent : machine.call? scene.around = none) :
    Advance scene remote genesis final stale shared machine
      (machine.step scene.around scene.handler final) := by
  have bounded := underway.bounded
  have lower := underway.lower
  have natural := unbroken.natural
  have keepsShelf := fun {world : σ} (shelf : scene.shelf world = scene.shelf machine.world) =>
    (shelf ▸ underway.keeps : (scene.shelf world).Keeps Holds (stale ++ shared))
  cases cancelled : scene.around.cancelled machine.world with
  | true =>
      rw [Machine.step, if_pos cancelled]
      exact .stopped cancelled silent underway.keeps
  | false =>
      have move := Machine.move_of_silent scene.handler final silent
      generalize machine.step scene.around scene.handler final = progress at move ⊢
      cases move with
      | stopped isCancelled => cases cancelled.symm.trans isCancelled
      | unresolved spent negative =>
          have less := Int64.lt_iff_toInt_lt.1 negative
          rw [Int64.toInt_zero] at less
          omega
      | statusFailed error spent _ answer => exact absurd answer faithful.status_ne_error
      | finished spent _ finished =>
          have passed : final < machine.engine.next := by
            simpa [Engine.finished, unbroken.given] using finished
          rw [underway.next_eq] at passed
          have less := Int64.lt_iff_toInt_lt.1 passed
          have none : stale = [] := by
            by_contra more
            exact absurd (underway.notPast more) (Int.not_le.2 less)
          subst none
          exact .finished silent ⟨rfl, passed⟩ (keepsShelf (scene.shelf_status _))
      | noticed spent _ _ =>
          exact .waited silent (underway.same (scene.shelf_status _) rfl bounded underway.round) rfl
      | rested spent _ _ _ =>
          refine .waited silent (underway.same ?_ rfl bounded underway.round) rfl
          exact (scene.shelf_rest _ _).trans (scene.shelf_status _)
      | began status spent naturalNext answer reached =>
          have reachable : Engine.reachable status.current.index final = final := by
            rw [faithful.current_eq unbroken.rules answer]
            exact Engine.reachable_eq unbroken.given unbroken.within
          rw [reachable] at reached ⊢
          exact .waited silent (underway.same (scene.shelf_status _) rfl
            (fun _ => Engine.next_add_roundSize_le reached) (round_of_began naturalNext)) rfl
      | interrupted left round answer =>
          exact .waited silent (underway.same (scene.shelf_asked _) rfl
            (fun more => absurd rfl more) fun more => absurd rfl more) rfl
      | fetchFailed left error round answer => exact absurd answer faithful.block_ne_error
      | skipped left round answer =>
          obtain ⟨block, found⟩ := unbroken.exists_block lower (by omega)
          cases found.symm.trans (faithful.found answer)
      | misplaced left block round answer elsewhere =>
          exact absurd (unbroken.rules.place (faithful.found answer)).1 elsewhere
      | decided decision => exact absurd decision Machine.not_decision_refusing
      | addFailed left block error round answer place child refused =>
          cases silent.symm.trans (Machine.call?_of_answer cancelled round answer place)
      | removeFailed left block last error round answer newest other refused =>
          have place := (unbroken.rules.place (faithful.found answer)).1
          cases silent.symm.trans (Machine.call?_of_answer cancelled round answer place)

end Underway

namespace Underway

variable (unbroken : Unbroken remote genesis tip final)
  (faithful : scene.Faithful remote genesis tip)

include unbroken faithful

/-- With strangers at the head, a step that calls takes the newest one back, or fails for
want of a window. -/
theorem advance_stale {call : Call} {rest : List Block}
    (underway : Underway scene remote genesis final (stranger :: rest) shared machine)
    (called : machine.call? scene.around = some call) :
    Advance scene remote genesis final (stranger :: rest) shared machine
      (machine.step scene.around scene.handler final) := by
  obtain ⟨block, received, verdict⟩ := Machine.call?_eq_some_iff.1 called
  obtain ⟨round, found⟩ := faithful.found_of_received received
  have other : block.parent ≠ stranger.id :=
    (underway.strangers stranger List.mem_cons_self).parent_ne unbroken.rules found
  cases window : machine.engine.window with
  | nil =>
      have added : machine.engine.verdict block = .added block := by
        rw [Engine.verdict, window]
      obtain rfl : .added block = call := added.symm.trans verdict
      cases underway.toLockstep.addition (unbroken.rules.servable found)
          (unbroken.rules.place found).1 with
      | granted child granted keeps => exact absurd (child stranger rfl) other
      | refused cause reason refused keeps same =>
          rw [Machine.step_of_refused called refused]
          exact .stalled window (List.cons_ne_nil _ _)
  | cons last below =>
      have isLast : machine.engine.window.head? = some last := congrArg List.head? window
      obtain ⟨head, older, chain, rfl⟩ := underway.toLockstep.exists_newest isLast
      cases chain
      obtain rfl : .removed stranger.id = call :=
        (Engine.verdict_of_other isLast other).symm.trans verdict
      obtain ⟨granted, keeps⟩ := InStep.removal underway.toInStep
      rw [Machine.step_of_granted called granted]
      have proper := underway.proper stranger List.mem_cons_self
      have place : stranger.id.index = followingIndex genesis (rest ++ shared) :=
        underway.contiguous.1
      have lockstep := Lockstep.pop underway.toLockstep keeps
      have standing := underway.toStanding.pop proper.2
      refine .removed rfl called ⟨lockstep, standing, place, fun more => absurd rfl more⟩ ?_
      change _ = machine.engine.window.tail.length + 1
      rw [window]
      rfl

/-- Without strangers, a step that calls adds the next block of the remote chain. -/
theorem advance_shared {call : Call}
    (underway : Underway scene remote genesis final [] shared machine)
    (called : machine.call? scene.around = some call) :
    Advance scene remote genesis final [] shared machine
      (machine.step scene.around scene.handler final) := by
  obtain ⟨block, received, verdict⟩ := Machine.call?_eq_some_iff.1 called
  obtain ⟨round, found⟩ := faithful.found_of_received received
  obtain ⟨left, more⟩ := Nat.exists_eq_succ_of_ne_zero round
  have place := (unbroken.rules.place found).1
  have servable := unbroken.rules.servable found
  have nextEq : machine.engine.next = followingIndex genesis shared := underway.next_eq
  have child : ∀ head ∈ shared.head?, block.parent = head.id := by
    intro head isHead
    obtain ⟨older, rfl⟩ := List.head?_eq_some_iff.1 isHead
    have agrees := underway.agrees
    rw [← nextEq] at agrees
    exact agrees.parent_eq unbroken.rules underway.keeps.kept.toOrderly found
  have added : machine.engine.verdict block = .added block := by
    refine Engine.verdict_of_child fun last isLast => ?_
    obtain ⟨head, older, chain, rfl⟩ := underway.toLockstep.exists_newest isLast
    exact child head (congrArg List.head? chain)
  obtain rfl : .added block = call := added.symm.trans verdict
  cases underway.toLockstep.addition servable place with
  | refused cause reason refused keeps same =>
      rcases reason with ⟨-, stored⟩ | ⟨head, isHead, other, -⟩
      · exact absurd stored (underway.hash_notMem unbroken found)
      · exact absurd (child head isHead) other
  | granted child granted keeps =>
      have bounded := underway.bounded round
      have reached : (followingIndex genesis shared).toInt ≤ final.toInt := by
        rw [← nextEq]
        omega
      rw [nextEq] at found
      have lockstep := underway.toLockstep.push servable more place keeps
      have standing := underway.toStanding.push unbroken found reached
      have agendaEq := agenda_eq_cons unbroken found reached
      have successor : (followingIndex genesis (block :: shared)).toInt =
          machine.engine.next.toInt + 1 := by
        rw [followingIndex, place]
        exact Words.toInt_succ (next_lt_of_place servable place)
      rw [Machine.step_of_granted called granted, Machine.decided_added more]
      refine .added rfl called agendaEq ⟨lockstep, standing, rfl, fun _ => ?_⟩
      change (followingIndex genesis (block :: shared)).toInt + left ≤ final.toInt + 1
      omega

/-- A step carries out what is left to decide, or fails for want of a window. -/
theorem advance (underway : Underway scene remote genesis final stale shared machine) :
    Advance scene remote genesis final stale shared machine
      (machine.step scene.around scene.handler final) := by
  cases called : machine.call? scene.around with
  | none => exact underway.advance_silent unbroken faithful called
  | some call =>
      cases stale with
      | nil => exact advance_shared unbroken faithful underway called
      | cons stranger rest => exact advance_stale unbroken faithful underway called

end Underway

/-! ## Runs -/

namespace Underway

variable (underway : Underway scene remote genesis final stale shared machine)
  (unbroken : Unbroken remote genesis tip final) (faithful : scene.Faithful remote genesis tip)

include underway unbroken faithful

/-- A run whose window reaches down to all strangers carries out the first of the decisions
that are left, and does not fail. -/
theorem run (covered : stale.length ≤ machine.engine.window.length) (fuel : Nat) :
    ∃ left grown,
      machine.calls scene.around scene.handler final fuel ++
        agenda remote genesis final left grown = agenda remote genesis final stale shared ∧
      left <:+ stale ∧ Standing remote genesis final left grown ∧
      (scene.shelf (machine.run scene.around scene.handler final fuel).2.world).Keeps Holds
        (left ++ grown) ∧
      ∀ error, (machine.run scene.around scene.handler final fuel).1 ≠ some (.error error) := by
  induction fuel generalizing machine stale shared with
  | zero =>
      exact ⟨stale, shared, rfl, List.suffix_rfl, underway.toStanding, underway.keeps,
        fun _ none => nomatch none⟩
  | succ fuel ih =>
      have advance := underway.advance unbroken faithful
      generalize stepped : machine.step scene.around scene.handler final = progress at advance
      cases advance with
      | stopped _ silent keeps | finished silent _ keeps =>
          rw [Machine.run_of_ended stepped, Machine.calls_of_ended stepped, silent]
          exact ⟨stale, shared, rfl, List.suffix_rfl, underway.toStanding, keeps,
            fun _ same => nomatch same⟩
      | stalled empty more =>
          rw [empty] at covered
          exact absurd (List.length_eq_zero_iff.1 (Nat.le_zero.1 covered)) more
      | waited silent underwayNext window =>
          rw [Machine.run_of_running stepped, Machine.calls_of_running stepped, silent]
          exact ih underwayNext (window ▸ covered)
      | removed split called underwayNext window =>
          subst split
          rw [List.length_cons, window] at covered
          obtain ⟨left, grown, same, suffix, rest⟩ :=
            ih underwayNext (Nat.le_of_succ_le_succ covered)
          rw [Machine.run_of_running stepped, Machine.calls_of_running stepped, called]
          exact ⟨left, grown, congrArg (_ :: ·) same, suffix.trans (List.suffix_cons _ _), rest⟩
      | added none called agendaEq underwayNext =>
          subst none
          obtain ⟨left, grown, same, suffix, rest⟩ := ih underwayNext (Nat.zero_le _)
          rw [Machine.run_of_running stepped, Machine.calls_of_running stepped, called, agendaEq]
          exact ⟨left, grown, congrArg (_ :: ·) same, suffix, rest⟩

/-- A run that nobody cancels and that ends well has had a window that reaches down to all
strangers, and has carried out all decisions. -/
theorem run_of_ok (uncancelled : ∀ world, scene.around.cancelled world = false) {fuel : Nat}
    {last : Machine σ}
    (ended : machine.run scene.around scene.handler final fuel = (some (.ok ()), last)) :
    stale.length ≤ machine.engine.window.length ∧
      machine.calls scene.around scene.handler final fuel =
        agenda remote genesis final stale shared := by
  induction fuel generalizing machine stale shared with
  | zero => cases ended
  | succ fuel ih =>
      have advance := underway.advance unbroken faithful
      generalize stepped : machine.step scene.around scene.handler final = progress at advance
      cases advance with
      | stopped cancelled _ _ => cases (uncancelled _).symm.trans cancelled
      | finished silent passed _ =>
          obtain ⟨rfl, passed⟩ := passed
          rw [Machine.calls_of_ended stepped, silent, agenda_eq_nil passed]
          exact ⟨Nat.zero_le _, rfl⟩
      | stalled empty more =>
          rw [Machine.run_of_ended stepped] at ended
          cases ended
      | waited silent underwayNext window =>
          rw [Machine.run_of_running stepped] at ended
          obtain ⟨covered, same⟩ := ih underwayNext ended
          rw [Machine.calls_of_running stepped, silent]
          exact ⟨window ▸ covered, same⟩
      | removed split called underwayNext window =>
          subst split
          rw [Machine.run_of_running stepped] at ended
          obtain ⟨covered, same⟩ := ih underwayNext ended
          rw [Machine.calls_of_running stepped, called, window]
          exact ⟨Nat.succ_le_succ covered, congrArg (_ :: ·) same⟩
      | added none called agendaEq underwayNext =>
          subst none
          rw [Machine.run_of_running stepped] at ended
          obtain ⟨-, same⟩ := ih underwayNext ended
          rw [Machine.calls_of_running stepped, called, agendaEq]
          exact ⟨Nat.zero_le _, congrArg (_ :: ·) same⟩

end Underway

namespace Underway

variable (underway : Underway scene remote genesis final stale shared machine)
  (unbroken : Unbroken remote genesis tip final) (fixed : scene.Fixed remote genesis tip)
  (spent : machine.remaining = 0)

include underway unbroken fixed spent

/-- Against a node that does not change, a run through an index of the chain comes to an
end. -/
theorem converges_or_stalls (paced : Paced machine.engine) (reaches : genesis ≤ final) :
    Converges scene remote genesis.toInt final machine ∨
      ∃ left, Stalls scene final left machine := by
  have pursuit : Pursuit scene remote genesis tip final :=
    ⟨unbroken.rules, fixed, unbroken.whole final reaches unbroken.within⟩
  have proper : ∀ block ∈ stale ++ shared, block.id.index.toInt < 9223372036854775807 :=
    fun block member => (underway.proper block member).2
  have natural : 0 ≤ machine.engine.next.toInt := Int.le_trans unbroken.natural underway.lower
  have within : machine.engine.next.toInt + machine.remaining ≤ final.toInt + 1 := by
    have order := Int64.le_iff_toInt_le.1 reaches
    have standing := underway.within
    rw [spent, underway.next_eq]
    omega
  have approach : Approach scene remote genesis.toInt final stale shared
      (followingIndex genesis shared).toInt machine :=
    ⟨underway.toLockstep, underway.strangers, underway.agrees, underway.lowest, natural, within,
      paced⟩
  by_cases none : stale = []
  · subst none
    have clean : Clean scene remote genesis.toInt final shared machine := by
      rw [Clean, underway.next_eq]
      exact approach
    exact Or.inl (pursuit.converges_of_clean clean)
  · have pending : Pending scene remote genesis.toInt final stale shared
        (followingIndex genesis shared).toInt machine := by
      refine ⟨approach, fun block member => underway.contiguous.le_of_mem proper member, ?_,
        Or.inl none, List.append_ne_nil_of_left_ne_nil none _, fun empty oldest isOldest => ?_, ?_⟩
      · rw [underway.next_eq]
        exact underway.contiguous.le_append proper
      · subst empty
        rw [← List.append_nil stale] at isOldest
        exact congrArg Int64.toInt (underway.contiguous.founded isOldest)
      · rw [underway.next_eq, Int64.le_iff_toInt_le]
        exact underway.notPast none
    rcases pursuit.converges_or_stalls pending with converges | ⟨_, left, _, _, stalls⟩
    · exact Or.inl converges
    · exact Or.inr ⟨_, stalls⟩

/-- If the end is below the first index, there is nothing to do. -/
theorem step_past (past : final < genesis) :
    machine.step scene.around scene.handler final =
      .ended (.ok ()) (machine.moved (scene.around.status machine.world).2) := by
  have lower := underway.lower
  have natural := unbroken.natural
  have order := Int64.lt_iff_toInt_lt.1 past
  refine fixed.step_finished unbroken.rules spent ?_ unbroken.given unbroken.within ?_
  · rw [Int64.le_iff_toInt_le, Int64.toInt_zero]
    omega
  · rw [Int64.lt_iff_toInt_lt]
    omega

/-- A run ends well if its window reaches down to all strangers. -/
theorem exists_ok (paced : Paced machine.engine)
    (covered : stale.length ≤ machine.engine.window.length) :
    ∃ steps last, ∀ fuel, machine.run scene.around scene.handler final (steps + fuel) =
      (some (.ok ()), last) := by
  by_cases reaches : genesis ≤ final
  · rcases underway.converges_or_stalls unbroken fixed spent paced reaches with
      ⟨steps, last, ran, -⟩ | ⟨_, block, head, steps, last, -, ran, -⟩
    · exact ⟨steps, last, ran⟩
    · obtain ⟨-, -, -, -, -, -, sound⟩ :=
        underway.run unbroken fixed.faithful covered (steps + 0)
      exact absurd (congrArg Prod.fst (ran 0)) (sound _)
  · have stepped := underway.step_past unbroken fixed spent (Int64.not_le.1 reaches)
    refine ⟨1, machine.moved (scene.around.status machine.world).2, fun fuel => ?_⟩
    rw [Nat.add_comm, Machine.run_of_ended stepped]

end Underway

end ChainFollower.Sync
