import ChainFollower.Proofs.Sync.Agreement
import ChainFollower.Proofs.Sync.Runs

/-!
# Going on after a restart

Against a remote node whose chain begins with what is stored, a run that goes on after the
head takes nothing back.  A run that cannot look up the head begins at the first block of
the chain, with a window from the end of the store, and takes back the newest block.
-/

namespace ChainFollower.Sync

open Store (Holds Worker)

variable {σ : Type} {scene : Scene σ} {remote : Int64 → Option Block} {genesis tip final : Int64}
  {chain older : List Block} {newest block : Block} {machine next : Machine σ}

/-! ## Faithful nodes -/

/-- The remote node answers from one chain, if it is not cut short by cancellation. -/
structure Scene.Faithful (scene : Scene σ) (remote : Int64 → Option Block) (genesis tip : Int64) :
    Prop where
  status : ∀ world,
    (scene.around.status world).1 = none ∧
        scene.around.cancelled (scene.around.status world).2 = true ∨
      ∃ status, (scene.around.status world).1 = some (.ok status) ∧
        (∃ first, remote genesis = some first ∧ status.genesis = first.id) ∧
        ∃ newest, remote tip = some newest ∧ status.current = newest.id
  block : ∀ index ahead world,
    (scene.around.block index ahead world).1 = none ∧
        scene.around.cancelled (scene.around.block index ahead world).2 = true ∨
      (scene.around.block index ahead world).1 = some (.ok (remote index))

/-- A fixed node is faithful. -/
theorem Scene.Fixed.faithful (fixed : scene.Fixed remote genesis tip) :
    scene.Faithful remote genesis tip where
  status world := Or.inr (fixed.status world)
  block index ahead world := Or.inr (fixed.block index ahead world)

namespace Scene.Faithful

variable (faithful : scene.Faithful remote genesis tip)

include faithful

theorem found {found : Option Block} {index : Int64} {world : σ}
    (answer : (scene.around.block index ahead world).1 = some (.ok found)) : remote index = found := by
  rcases faithful.block index ahead world with ⟨none, -⟩ | served
  · cases none.symm.trans answer
  · cases served.symm.trans answer
    rfl

theorem found_of_received (received : machine.received? scene.around = some block) :
    machine.remaining ≠ 0 ∧ remote machine.engine.next = some block := by
  obtain ⟨-, round, answer, -⟩ := Machine.received?_eq_some_iff.1 received
  exact ⟨round, faithful.found answer⟩

/-- The status names the ends of the chain. -/
theorem current_eq (rules : RemoteChain remote genesis tip) {status : NetworkStatus} {world : σ}
    (answer : (scene.around.status world).1 = some (.ok status)) : status.current.index = tip := by
  rcases faithful.status world with ⟨none, -⟩ | ⟨given, served, -, newest, found, current⟩
  · cases none.symm.trans answer
  · cases served.symm.trans answer
    rw [current, (rules.place found).1]

theorem genesis_eq (rules : RemoteChain remote genesis tip) {status : NetworkStatus} {world : σ}
    (answer : (scene.around.status world).1 = some (.ok status)) :
    status.genesis.index = genesis := by
  rcases faithful.status world with ⟨none, -⟩ | ⟨given, served, ⟨first, found, isFirst⟩, -⟩
  · cases none.symm.trans answer
  · cases served.symm.trans answer
    rw [isFirst, (rules.place found).1]

/-- Requests do not fail. -/
theorem status_ne_error {error : SyncError} {world : σ} :
    (scene.around.status world).1 ≠ some (.error error) := by
  intro answer
  rcases faithful.status world with ⟨none, -⟩ | ⟨given, served, -⟩
  · cases none.symm.trans answer
  · cases served.symm.trans answer

theorem block_ne_error {error : SyncError} {index : Int64} {world : σ} :
    (scene.around.block index ahead world).1 ≠ some (.error error) := by
  intro answer
  rcases faithful.block index ahead world with ⟨none, -⟩ | served
  · cases none.symm.trans answer
  · cases served.symm.trans answer

end Scene.Faithful

/-! ## Following a chain -/

/-- The store holds the remote chain up to the next index, and the round stays within the
chain. -/
structure Following (scene : Scene σ) (remote : Int64 → Option Block) (genesis tip : Int64)
    (chain : List Block) (machine : Machine σ) : Prop extends Lockstep scene chain machine where
  agrees : Agrees remote genesis.toInt machine.engine.next.toInt chain
  lowest : genesis.toInt ≤ machine.engine.next.toInt
  bounded : machine.remaining ≠ 0 →
    machine.engine.next.toInt + machine.remaining ≤ tip.toInt + 1

namespace Following

/-- The next block of the remote chain is a child of the head. -/
theorem child (following : Following scene remote genesis tip chain machine)
    (rules : RemoteChain remote genesis tip) (found : remote machine.engine.next = some block) :
    ∀ head ∈ chain.head?, block.parent = head.id := by
  intro head isHead
  cases chain with
  | nil => cases isHead
  | cons newest older =>
      cases isHead
      exact following.agrees.parent_eq rules following.keeps.kept.toOrderly found

variable (following : Following scene remote genesis tip chain machine)
  (rules : RemoteChain remote genesis tip) (faithful : scene.Faithful remote genesis tip)

include following rules faithful

/-- Nothing is taken back. -/
theorem added_of_call {call : Call} (called : machine.call? scene.around = some call) :
    ∃ block, call = .added block ∧ machine.remaining ≠ 0 ∧
      remote machine.engine.next = some block := by
  obtain ⟨block, received, rfl⟩ := Machine.call?_eq_some_iff.1 called
  obtain ⟨round, found⟩ := faithful.found_of_received received
  refine ⟨block, Engine.verdict_of_child fun last isLast => ?_, round, found⟩
  obtain ⟨head, older, rfl, rfl⟩ := following.exists_newest isLast
  exact following.child rules found head rfl

/-- A step without a call leaves the chain as it is. -/
theorem step_silent (silent : machine.call? scene.around = none)
    (stepped : machine.step scene.around scene.handler final = .running next) :
    Following scene remote genesis tip chain next := by
  have move := Machine.move_of_silent scene.handler final silent
  have bounded := following.bounded
  rw [stepped] at move
  cases move with
  | noticed =>
      exact { following with
        toLockstep := following.toLockstep.same (scene.shelf_status _) rfl following.round }
  | rested =>
      have shelf := (scene.shelf_rest (scene.around.status machine.world).2
        machine.engine.pause).trans (scene.shelf_status _)
      exact { following with toLockstep := following.toLockstep.same shelf rfl following.round }
  | began status spent natural answer reached =>
      have within := Int64.le_iff_toInt_le.1 (Engine.reachable_le status.current.index final)
      have current := congrArg Int64.toInt (faithful.current_eq rules answer)
      refine { following with toLockstep := ?_, bounded := fun _ => ?_ }
      · exact following.toLockstep.same (scene.shelf_status _) rfl (round_of_began natural)
      · exact Int.le_trans (Engine.next_add_roundSize_le reached) (by omega)
  | interrupted =>
      refine { following with toLockstep := ?_, bounded := fun more => absurd rfl more }
      exact following.toLockstep.same (scene.shelf_asked _) rfl fun more => absurd rfl more
  | skipped left round answer =>
      have omitted := faithful.found answer
      have small := rules.small
      have inRound := bounded (by omega)
      obtain ⟨successor, lockstep⟩ :=
        following.toLockstep.skip_of_lt round (scene.shelf_asked _) (by omega)
      have lowest := following.lowest
      refine { following with toLockstep := lockstep, agrees := ?_, lowest := ?_, bounded := ?_ }
      · change Agrees remote genesis.toInt machine.engine.skip.next.toInt chain
        rw [successor]
        exact following.agrees.skip omitted
      · change genesis.toInt ≤ machine.engine.skip.next.toInt
        omega
      · intro _
        change machine.engine.skip.next.toInt + left ≤ _
        omega
  | decided decision => exact absurd decision Machine.not_decision_refusing

/-- A step with a call adds the next block of the remote chain. -/
theorem step_call {call : Call} (called : machine.call? scene.around = some call)
    (stepped : machine.step scene.around scene.handler final = .running next) :
    ∃ block, Following scene remote genesis tip (block :: chain) next := by
  obtain ⟨block, rfl, round, found⟩ := following.added_of_call rules faithful called
  obtain ⟨left, more⟩ := Nat.exists_eq_succ_of_ne_zero round
  have servable := rules.servable found
  have place := (rules.place found).1
  have bounded := following.bounded round
  have lowest := following.lowest
  have successor : (machine.engine.push block.id).next.toInt = machine.engine.next.toInt + 1 := by
    change (block.id.index + 1).toInt = _
    rw [place, Words.toInt_succ (next_lt_of_place servable place)]
  cases following.toLockstep.addition servable place with
  | refused cause reason refused keeps same =>
      cases stepped.symm.trans (Machine.step_of_refused called refused)
  | granted child granted keeps =>
      have decided : next = ⟨machine.engine.push block.id, left,
          (scene.handler.added block (machine.asked scene.around)).2⟩ := by
        cases stepped.symm.trans (Machine.step_of_granted called granted)
        exact Machine.decided_added more block _
      subst decided
      refine ⟨block, following.toLockstep.push servable more place keeps, ?_, ?_, ?_⟩
      · change Agrees remote genesis.toInt (machine.engine.push block.id).next.toInt _
        rw [successor]
        exact following.agrees.push lowest found
      · change genesis.toInt ≤ (machine.engine.push block.id).next.toInt
        omega
      · intro _
        change (machine.engine.push block.id).next.toInt + left ≤ _
        omega

/-- A step that goes on leaves what was stored. -/
theorem step (stepped : machine.step scene.around scene.handler final = .running next) :
    ∃ longer, chain <:+ longer ∧ Following scene remote genesis tip longer next := by
  cases called : machine.call? scene.around with
  | none => exact ⟨chain, List.suffix_rfl, following.step_silent rules faithful called stepped⟩
  | some call =>
      obtain ⟨block, followingNext⟩ := following.step_call rules faithful called stepped
      exact ⟨block :: chain, List.suffix_cons block chain, followingNext⟩

/-- So does a step that ends the run. -/
theorem ended {result : Except SyncError Unit} {last : Machine σ}
    (stepped : machine.step scene.around scene.handler final = .ended result last) :
    (scene.shelf last.world).Keeps Holds chain := by
  cases called : machine.call? scene.around with
  | none =>
      have kept : (scene.shelf (machine.step scene.around scene.handler final).machine.world).Keeps
          Holds chain :=
        Machine.kept_of_silent (scene.keeps_shelf fun shelf => shelf.Keeps Holds chain) called
          following.keeps
      rwa [stepped] at kept
  | some call =>
      obtain ⟨block, rfl, -, found⟩ := following.added_of_call rules faithful called
      cases following.toLockstep.addition (rules.servable found) (rules.place found).1 with
      | granted child granted keeps =>
          cases stepped.symm.trans (Machine.step_of_granted called granted)
      | refused cause reason refused keeps same =>
          cases stepped.symm.trans (Machine.step_of_refused called refused)
          exact keeps

/-- A run takes nothing back, and leaves what was stored. -/
theorem run (fuel : Nat) :
    (∀ call ∈ machine.calls scene.around scene.handler final fuel, ∃ block, call = .added block) ∧
      ∃ longer, chain <:+ longer ∧ (scene.shelf
        (machine.run scene.around scene.handler final fuel).2.world).Keeps Holds longer := by
  induction fuel generalizing machine chain with
  | zero => exact ⟨fun _ none => (nomatch none), chain, List.suffix_rfl, following.keeps⟩
  | succ fuel ih =>
      have added : ∀ call ∈ (machine.call? scene.around).toList, ∃ block, call = .added block := by
        intro call member
        obtain ⟨block, same, -⟩ :=
          following.added_of_call rules faithful (Option.mem_toList.1 member)
        exact ⟨block, same⟩
      cases stepped : machine.step scene.around scene.handler final with
      | ended result last =>
          rw [Machine.run_of_ended stepped, Machine.calls_of_ended stepped]
          exact ⟨added, chain, List.suffix_rfl, following.ended rules faithful stepped⟩
      | running next =>
          rw [Machine.run_of_running stepped, Machine.calls_of_running stepped]
          obtain ⟨longer, suffix, followingNext⟩ := following.step rules faithful stepped
          obtain ⟨addedNext, kept, suffixNext, keeps⟩ := ih followingNext
          refine ⟨fun call member => ?_, kept, suffix.trans suffixNext, keeps⟩
          rcases List.mem_append.1 member with member | member
          · exact added call member
          · exact addedNext call member

end Following

/-! ## Going on after the head -/

/-- The machine of a run that goes on after a chain, from an index. -/
structure Scene.Resumed (scene : Scene σ) (follower : Follower) (chain : List Block)
    (first : Int64) (world : σ) (machine : Machine σ) : Prop where
  sync_eq : ∀ final fuel, follower.sync scene.around scene.ledger (-1) final fuel world =
    ((machine.run scene.around scene.handler final fuel).1,
      (machine.run scene.around scene.handler final fuel).2.world)
  calls_eq : ∀ final fuel, follower.calls scene.around scene.ledger (-1) final fuel world =
    machine.calls scene.around scene.handler final fuel
  engine_eq : machine.engine =
    { startEngine follower (scene.shelf world).store.cacheSize chain with next := first }
  spent : machine.remaining = 0
  /-- Until then, the store was only read. -/
  shelf_eq : ∃ accesses, scene.shelf machine.world = Store.Shelf.counted
    ⟨{ (scene.shelf world).store with workers := follower.workers },
      (scene.shelf world).session⟩ accesses

namespace Scene

variable {world : σ} {follower : Follower} {first : Int64}

/-- A run without a start goes on after the head. -/
theorem exists_resumed (follower : Follower) (holdsAt : scene.HoldsAt (newest :: older) world)
    (room : (scene.shelf world).store.HasRoom) :
    ∃ machine,
      scene.Resumed follower (newest :: older) (newest.id.index + 1) world machine := by
  obtain ⟨prepared, accesses, ready, shelf⟩ :=
    prepare_resume_counted follower holdsAt fun _ => room
  have natural : 0 ≤ newest.id.index + 1 := by
    rcases startsAbove_resumeIndex holdsAt.proper with ⟨-, empty⟩ | ⟨natural, -⟩
    · cases empty
    · exact natural
  have given : newest.id.index + 1 ≠ -1 := fun same => absurd (same ▸ natural) (by decide)
  have settled : ∀ engine, Machine.settle scene.around (newest.id.index + 1)
      ⟨engine, 0, prepared⟩ = .running (Machine.startingAt ⟨engine, 0, prepared⟩ _) :=
    fun engine => if_pos given
  exact ⟨_, fun final => Follower.sync_of_running ready (settled _),
    fun final => Follower.calls_of_running ready (settled _), rfl, rfl, accesses, shelf⟩

/-- The index after the head, or that of the first block if there is no head. -/
def followingIndex (genesis : Int64) : List Block → Int64
  | [] => genesis
  | newest :: _ => newest.id.index + 1

theorem toInt_followingIndex (genesis : Int64) (older : List Block)
    (proper : newest.id.index.toInt < 9223372036854775807) :
    (followingIndex genesis (newest :: older)).toInt = newest.id.index.toInt + 1 :=
  Words.toInt_succ proper

theorem lt_followingIndex (genesis : Int64) (proper : ∀ block ∈ chain,
      0 ≤ block.id.index.toInt ∧ block.id.index.toInt < 9223372036854775807) :
    ∀ newest ∈ chain.head?, newest.id.index < followingIndex genesis chain := by
  intro newest isNewest
  obtain ⟨older, rfl⟩ := List.head?_eq_some_iff.1 isNewest
  have successor := toInt_followingIndex genesis older (proper newest List.mem_cons_self).2
  rw [Int64.lt_iff_toInt_lt, successor]
  omega

/-- Against a node that does not change, a run without a start goes on after the head or
begins at the first block. -/
theorem Fixed.exists_resumed (fixed : scene.Fixed remote genesis tip)
    (rules : RemoteChain remote genesis tip) (follower : Follower)
    (holdsAt : scene.HoldsAt chain world)
    (room : chain ≠ [] → (scene.shelf world).store.HasRoom) :
    ∃ machine, scene.Resumed follower chain (followingIndex genesis chain) world machine := by
  cases chain with
  | cons newest older =>
      exact scene.exists_resumed follower holdsAt (room (List.cons_ne_nil newest older))
  | nil =>
      obtain ⟨prepared, accesses, ready, shelf⟩ := prepare_resume_counted follower holdsAt room
      have settled := fixed.settle_genesis rules
        (startEngine follower (scene.shelf world).store.cacheSize []) prepared
      exact ⟨_, fun final => Follower.sync_of_running ready settled,
        fun final => Follower.calls_of_running ready settled, rfl, rfl, accesses,
        (scene.shelf_status prepared).trans shelf⟩

/-- Against a faithful node it does so too, unless it is cancelled before that block is
known. -/
theorem Faithful.exists_resumed (faithful : scene.Faithful remote genesis tip)
    (rules : RemoteChain remote genesis tip) (follower : Follower)
    (holdsAt : scene.HoldsAt chain world)
    (room : chain ≠ [] → (scene.shelf world).store.HasRoom) :
    (∃ machine, scene.Resumed follower chain (followingIndex genesis chain) world machine) ∨
      ∀ final fuel, follower.calls scene.around scene.ledger (-1) final fuel world = [] := by
  cases chain with
  | cons newest older =>
      exact Or.inl (scene.exists_resumed follower holdsAt (room (List.cons_ne_nil newest older)))
  | nil =>
      obtain ⟨prepared, accesses, ready, shelf⟩ := prepare_resume_counted follower holdsAt room
      cases settled : Machine.settle scene.around (-1)
          ⟨startEngine follower (scene.shelf world).store.cacheSize [], 0, prepared⟩ with
      | ended result last =>
          exact Or.inr fun final fuel => (Follower.sync_of_ended ready settled final fuel).2
      | running machine =>
          have begun := settled
          unfold Machine.settle at begun
          rw [if_neg (not_not.2 rfl)] at begun
          split at begun
          next => cases begun
          next =>
            dsimp only at begun
            split at begun
            next => cases begun
            next => cases begun
            next status answer =>
              cases begun
              refine Or.inl ⟨_, fun final => Follower.sync_of_running ready settled,
                fun final => Follower.calls_of_running ready settled, ?_, rfl, accesses,
                (scene.shelf_status prepared).trans shelf⟩
              change { startEngine follower _ [] with next := status.genesis.index } = _
              rw [faithful.genesis_eq rules answer]
              rfl

namespace Resumed

/-- If a run ends, so does its machine. -/
theorem run_of_sync (resumed : scene.Resumed follower chain first world machine) {fuel : Nat}
    {result : Except SyncError Unit} {after : σ}
    (ended : follower.sync scene.around scene.ledger (-1) final fuel world = (some result, after)) :
    ∃ last, machine.run scene.around scene.handler final fuel = (some result, last) := by
  rw [resumed.sync_eq] at ended
  exact ⟨_, Prod.ext (Prod.ext_iff.1 ended).1 rfl⟩

variable (resumed : scene.Resumed follower chain first world machine)
  (holdsAt : scene.HoldsAt chain world) (tame : ∀ worker ∈ follower.workers, worker.Tame)

include resumed holdsAt tame

theorem inStep : InStep scene chain machine := by
  obtain ⟨accesses, shelf⟩ := resumed.shelf_eq
  have keeps : (scene.shelf machine.world).Keeps Holds chain := by
    rw [shelf]
    exact ⟨tame, holdsAt.sound, holdsAt.holds⟩
  have window := congrArg Engine.window resumed.engine_eq
  have limit := congrArg Engine.windowLimit resumed.engine_eq
  exact (inStep_startEngine follower (scene.shelf world).store.cacheSize keeps
    holdsAt.proper).same rfl window limit

/-- Above the head, it begins in lockstep. -/
theorem lockstep (ahead : ∀ head ∈ chain.head?, head.id.index < first) :
    Lockstep scene chain machine where
  toInStep := resumed.inStep holdsAt tame
  ahead := by
    rw [resumed.engine_eq]
    exact ahead
  round more := absurd resumed.spent more

end Resumed

end Scene

/-- A run that goes on after the head of a part of the remote chain follows that chain. -/
theorem following_of_resumed {world : σ} {follower : Follower}
    (resumed : scene.Resumed follower (newest :: older) (newest.id.index + 1) world machine)
    (holdsAt : scene.HoldsAt (newest :: older) world)
    (tame : ∀ worker ∈ follower.workers, worker.Tame)
    (shared : Agrees remote genesis.toInt (newest.id.index.toInt + 1) (newest :: older)) :
    Following scene remote genesis tip (newest :: older) machine := by
  have successor : (newest.id.index + 1).toInt = newest.id.index.toInt + 1 :=
    Words.toInt_succ (holdsAt.proper newest List.mem_cons_self).2
  have next : machine.engine.next = newest.id.index + 1 := congrArg Engine.next resumed.engine_eq
  obtain ⟨index, above, below, -⟩ := (shared newest).1 List.mem_cons_self
  have above := Scene.lt_followingIndex genesis holdsAt.proper
  refine ⟨resumed.lockstep holdsAt tame above, ?_, ?_, fun more => absurd resumed.spent more⟩
  · rwa [next, successor]
  · rw [next, successor]
    omega

end ChainFollower.Sync
