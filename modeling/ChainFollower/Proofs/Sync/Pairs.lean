import ChainFollower.Proofs.Sync.Trails

/-!
# Runs side by side

Two worlds are alike when no request and no call tells them apart: whatever a run asks for or
does in either of them has the same result, and leaves them alike.  Runs in worlds that are
alike make the same calls and end in the same way.  What a ledger answers when something is
logged or counted is not among these results.
-/

namespace ChainFollower.Sync

variable {σ τ α : Type} {Alike : σ → τ → Prop} {first : σ} {second : τ}

/-- The same result, in worlds that are alike. -/
def Paired (Alike : σ → τ → Prop) (left : α × σ) (right : α × τ) : Prop :=
  left.1 = right.1 ∧ Alike left.2 right.2

/-- Surroundings of worlds, in which all requests and waits go alike. -/
structure Surroundings.Pairs (left : Surroundings σ) (right : Surroundings τ)
    (Alike : σ → τ → Prop) : Prop where
  cancelled : ∀ {first second}, Alike first second → left.cancelled first = right.cancelled second
  status : ∀ {first second}, Alike first second →
    Paired Alike (left.status first) (right.status second)
  block : ∀ {first second} index ahead, Alike first second →
    Paired Alike (left.block index ahead first) (right.block index ahead second)
  rest : ∀ {first second} span, Alike first second →
    Alike (left.rest span first) (right.rest span second)

/-- Handlers whose calls go alike. -/
def Handler.Pairs (left : Handler σ) (right : Handler τ) (Alike : σ → τ → Prop) : Prop :=
  ∀ {first second} call, Alike first second →
    Paired Alike (left.carry call first) (right.carry call second)

/-- Machines with the same engine at the same place, in worlds that are alike. -/
structure Machine.Paired (Alike : σ → τ → Prop) (left : Machine σ) (right : Machine τ) : Prop where
  engine : left.engine = right.engine
  remaining : left.remaining = right.remaining
  world : Alike left.world right.world

/-- Steps that go on or end in the same way. -/
inductive Progress.Paired (Alike : σ → τ → Prop) : Progress σ → Progress τ → Prop
  | running {left : Machine σ} {right : Machine τ} (machines : left.Paired Alike right) :
      Progress.Paired Alike (.running left) (.running right)
  | ended (result : Except SyncError Unit) {left : Machine σ} {right : Machine τ}
      (machines : left.Paired Alike right) :
      Progress.Paired Alike (.ended result left) (.ended result right)

/-! ## Steps -/

namespace Machine.Paired

variable {around : Surroundings σ} {aroundRight : Surroundings τ} {handler : Handler σ}
  {handlerRight : Handler τ} {left : Machine σ} {right : Machine τ} {final : Int64}

theorem moved (machines : left.Paired Alike right) (alike : Alike first second) :
    (left.moved first).Paired Alike (right.moved second) :=
  ⟨machines.engine, machines.remaining, alike⟩

section

variable (pairs : around.Pairs aroundRight Alike)
include pairs

theorem settle (machines : left.Paired Alike right) (start : Int64) :
    (Machine.settle around start left).Paired Alike
      (Machine.settle aroundRight start right) := by
  obtain ⟨answer, alike⟩ := pairs.status machines.world
  have moved := machines.moved alike
  have starting {leftMachine : Machine σ} {rightMachine : Machine τ}
      (paired : leftMachine.Paired Alike rightMachine) (index : Int64) :
      (leftMachine.startingAt index).Paired Alike (rightMachine.startingAt index) :=
    ⟨congrArg (fun engine => { engine with next := index }) paired.engine, rfl, paired.world⟩
  unfold Machine.settle
  rw [pairs.cancelled machines.world]
  split
  · exact .running (starting machines start)
  split
  · exact .ended _ machines
  dsimp only
  rw [answer]
  cases (aroundRight.status right.world).1 with
  | none => exact .ended _ moved
  | some result =>
      cases result with
      | error error => exact .ended _ moved
      | ok status => exact .running (starting moved status.genesis.index)

/-- The next block is asked for alike, with as many requests ahead of it. -/
theorem ask (machines : left.Paired Alike right) :
    Sync.Paired Alike (left.ask around) (right.ask aroundRight) := by
  unfold Machine.ask Machine.ahead
  rw [machines.engine, machines.remaining]
  exact pairs.block right.engine.next _ machines.world

theorem call? (machines : left.Paired Alike right) :
    left.call? around = right.call? aroundRight := by
  have answer := (machines.ask pairs).1
  unfold Machine.call? Machine.received?
  rw [pairs.cancelled machines.world, machines.remaining, machines.engine, answer]

theorem idle (machines : left.Paired Alike right) (final : Int64) :
    (left.idle around final).Paired Alike (right.idle aroundRight final) := by
  unfold Machine.idle
  rw [pairs.cancelled machines.world, machines.engine]
  split
  · exact .running machines
  · split
    · exact .ended _ machines
    · exact .running (machines.moved (pairs.rest _ machines.world))

theorem beginRound (machines : left.Paired Alike right) (final : Int64) :
    (left.beginRound around final).Paired Alike (right.beginRound aroundRight final) := by
  obtain ⟨answer, alike⟩ := pairs.status machines.world
  have moved := machines.moved alike
  unfold Machine.beginRound
  rw [machines.engine]
  by_cases negative : right.engine.next < 0
  · rw [if_pos negative, if_pos negative]
    exact .ended _ machines
  rw [if_neg negative, if_neg negative]
  dsimp only
  rw [answer]
  cases (aroundRight.status right.world).1 with
  | none => exact moved.idle pairs final
  | some result =>
      cases result with
      | error error => exact .ended _ moved
      | ok status =>
          dsimp only
          rw [moved.engine]
          split
          · exact moved.idle pairs final
          · exact .running ⟨rfl, rfl, moved.world⟩

end

section

variable (pairs : handler.Pairs handlerRight Alike)
include pairs

theorem handOver (machines : left.Paired Alike right) (rest : Nat) (block : Block) :
    (left.handOver handler rest block).Paired Alike
      (right.handOver handlerRight rest block) := by
  obtain ⟨result, alike⟩ := pairs (.added block) machines.world
  have moved := machines.moved alike
  unfold Machine.handOver
  dsimp only
  rw [show (handler.added block left.world).1 = (handlerRight.added block right.world).1 from result]
  cases (handlerRight.added block right.world).1 with
  | error error => exact .ended _ moved
  | ok => exact .running ⟨congrArg (·.push block.id) machines.engine, rfl, alike⟩

theorem takeBack (machines : left.Paired Alike right) (last : BlockId) :
    (left.takeBack handler last).Paired Alike (right.takeBack handlerRight last) := by
  obtain ⟨result, alike⟩ := pairs (.removed last) machines.world
  have moved := machines.moved alike
  unfold Machine.takeBack
  dsimp only
  rw [show (handler.removed last left.world).1 = (handlerRight.removed last right.world).1
    from result]
  cases (handlerRight.removed last right.world).1 with
  | error error => exact .ended _ moved
  | ok => exact .running ⟨congrArg (·.pop last) machines.engine, rfl, alike⟩

theorem receive (machines : left.Paired Alike right) (rest : Nat) (found : Option Block) :
    (left.receive handler rest found).Paired Alike (right.receive handlerRight rest found) := by
  cases found with
  | none => exact .running ⟨congrArg Engine.skip machines.engine, rfl, machines.world⟩
  | some block =>
      unfold Machine.receive
      dsimp only
      rw [link_eq_verdict, link_eq_verdict, machines.engine]
      split
      · cases right.engine.verdict block with
        | added added => exact machines.handOver pairs rest added
        | removed last => exact machines.takeBack pairs last
      · exact .ended _ machines

end

section

variable (pairs : around.Pairs aroundRight Alike) (calls : handler.Pairs handlerRight Alike)
include pairs calls

theorem fetch (machines : left.Paired Alike right) (rest : Nat) :
    (left.fetch around handler rest).Paired Alike
      (right.fetch aroundRight handlerRight rest) := by
  obtain ⟨answer, alike⟩ := machines.ask pairs
  have moved := machines.moved alike
  unfold Machine.fetch
  dsimp only
  rw [answer]
  cases (right.ask aroundRight).1 with
  | none => exact .running ⟨moved.engine, rfl, moved.world⟩
  | some result =>
      cases result with
      | error error =>
          dsimp only
          rw [moved.engine]
          exact .ended _ moved
      | ok found => exact moved.receive calls rest found

theorem step (machines : left.Paired Alike right) (final : Int64) :
    (left.step around handler final).Paired Alike
      (right.step aroundRight handlerRight final) := by
  unfold Machine.step
  rw [pairs.cancelled machines.world, machines.remaining]
  split
  · exact .ended _ ⟨machines.engine, rfl, machines.world⟩
  · split
    · exact machines.beginRound pairs final
    · exact machines.fetch pairs calls _

/-! ## Runs -/

theorem granted? (machines : left.Paired Alike right) :
    left.granted? around handler = right.granted? aroundRight handlerRight := by
  have asked : Alike (left.asked around) (right.asked aroundRight) := (machines.ask pairs).2
  have granted : (fun call => (handler.carry call (left.asked around)).1.isOk) =
      fun call => (handlerRight.carry call (right.asked aroundRight)).1.isOk := by
    funext call
    rw [(calls call asked).1]
  unfold Machine.granted?
  rw [machines.call? pairs, granted]

/-- What is noted of the one run is noted of the other. -/
theorem trail {note : Machine σ → List α} {noteRight : Machine τ → List α}
    (same : ∀ {left right}, Machine.Paired Alike left right → note left = noteRight right)
    (machines : left.Paired Alike right) (final : Int64) (fuel : Nat) :
    left.trail note around handler final fuel =
      right.trail noteRight aroundRight handlerRight final fuel := by
  induction fuel generalizing left right with
  | zero => rfl
  | succ fuel ih =>
      have stepped := machines.step pairs calls final
      rw [Machine.trail, Machine.trail, same machines]
      generalize left.step around handler final = progress at stepped ⊢
      generalize right.step aroundRight handlerRight final = progressRight at stepped ⊢
      cases stepped with
      | running next => exact congrArg (noteRight right ++ ·) (ih next)
      | ended result last => rfl

/-- Both runs end in the same way. -/
theorem run (machines : left.Paired Alike right) (final : Int64) (fuel : Nat) :
    (left.run around handler final fuel).1 = (right.run aroundRight handlerRight final fuel).1 ∧
      (left.run around handler final fuel).2.Paired Alike
        (right.run aroundRight handlerRight final fuel).2 := by
  induction fuel generalizing left right with
  | zero => exact ⟨rfl, machines⟩
  | succ fuel ih =>
      have stepped := machines.step pairs calls final
      rw [Machine.run, Machine.run]
      generalize left.step around handler final = progress at stepped ⊢
      generalize right.step aroundRight handlerRight final = progressRight at stepped ⊢
      cases stepped with
      | running next => exact ih next
      | ended result last => exact ⟨rfl, last⟩

end

end Machine.Paired

/-! ## Followers -/

/-- Ledgers that a follower cannot tell apart: the block stores answer alike, and whatever
becomes of what is logged and counted, the worlds stay alike. -/
structure Ledger.Pairs (left : Ledger σ) (right : Ledger τ) (Alike : σ → τ → Prop) : Prop where
  setStart : ∀ {first second} start, Alike first second →
    Paired Alike (left.setStart start first) (right.setStart start second)
  head : ∀ {first second}, Alike first second → Paired Alike (left.head first) (right.head second)
  recent : ∀ {first second}, Alike first second →
    Paired Alike (left.recent first) (right.recent second)
  add : ∀ {first second} block, Alike first second →
    Paired Alike (left.add block first) (right.add block second)
  remove : ∀ {first second} id, Alike first second →
    Paired Alike (left.remove id first) (right.remove id second)
  logAddition : ∀ {first second} block, Alike first second →
    Alike (left.logAddition block first).2 (right.logAddition block second).2
  logRemoval : ∀ {first second} id, Alike first second →
    Alike (left.logRemoval id first).2 (right.logRemoval id second).2
  count : ∀ {first second} name delta, Alike first second →
    Alike (left.count name delta first).2 (right.count name delta second).2

namespace Ledger.Pairs

variable {ledger : Ledger σ} {ledgerRight : Ledger τ}

/-- Decisions are recorded alike. -/
theorem handler (ledgers : ledger.Pairs ledgerRight Alike) :
    (Follower.handler ledger).Pairs (Follower.handler ledgerRight) Alike := by
  intro first second call alike
  cases call with
  | added block =>
      obtain ⟨result, stored⟩ := ledgers.add block alike
      change Paired Alike (Follower.added ledger block first)
        (Follower.added ledgerRight block second)
      cases granted : (ledgerRight.add block second).1 with
      | error error =>
          rw [Follower.added_of_error granted, Follower.added_of_error (result.trans granted)]
          exact ⟨rfl, stored⟩
      | ok =>
          rw [Follower.added_of_ok granted, Follower.added_of_ok (result.trans granted)]
          have logged := ledgers.logAddition block stored
          exact ⟨rfl, ledgers.count _ _ (ledgers.count _ _ (ledgers.count _ _ logged))⟩
  | removed id =>
      obtain ⟨result, stored⟩ := ledgers.remove id alike
      change Paired Alike (Follower.removed ledger id first)
        (Follower.removed ledgerRight id second)
      cases granted : (ledgerRight.remove id second).1 with
      | error error =>
          rw [Follower.removed_of_error granted, Follower.removed_of_error (result.trans granted)]
          exact ⟨rfl, stored⟩
      | ok =>
          rw [Follower.removed_of_ok granted, Follower.removed_of_ok (result.trans granted)]
          exact ⟨rfl, ledgers.count _ _ (ledgers.logRemoval id stored)⟩

/-- The start is settled alike. -/
theorem startIndex (ledgers : ledger.Pairs ledgerRight Alike) (start : Int64)
    (alike : Alike first second) :
    Paired Alike (Follower.startIndex ledger start first)
      (Follower.startIndex ledgerRight start second) := by
  unfold Follower.startIndex
  by_cases given : start ≠ -1
  · rw [if_pos given, if_pos given]
    obtain ⟨result, started⟩ := ledgers.setStart start alike
    dsimp only
    rw [result]
    exact ⟨rfl, started⟩
  · rw [if_neg given, if_neg given]
    obtain ⟨result, found⟩ := ledgers.head alike
    generalize ledger.head first = left at result found ⊢
    generalize ledgerRight.head second = right at result found ⊢
    obtain ⟨found?, leftAfter⟩ := left
    obtain ⟨foundRight, rightAfter⟩ := right
    cases result
    cases found? <;> exact ⟨rfl, found⟩

/-- Followers are prepared alike. -/
theorem prepare (ledgers : ledger.Pairs ledgerRight Alike) {follower : Follower} {start : Int64}
    (valid : ¬start < -1) (alike : Alike (ledger.prepare follower.workers first)
      (ledgerRight.prepare follower.workers second)) :
    Paired Alike (follower.prepare ledger start first)
      (follower.prepare ledgerRight start second) := by
  unfold Follower.prepare
  rw [if_neg valid, if_neg valid]
  obtain ⟨result, started⟩ := ledgers.startIndex start alike
  dsimp only
  generalize Follower.startIndex ledger start _ = left at result started ⊢
  generalize Follower.startIndex ledgerRight start _ = right at result started ⊢
  obtain ⟨settled, leftAfter⟩ := left
  obtain ⟨settledRight, rightAfter⟩ := right
  cases result
  cases settled with
  | error error => exact ⟨rfl, started⟩
  | ok index =>
      obtain ⟨recent, read⟩ := ledgers.recent started
      dsimp only
      generalize ledger.recent leftAfter = left at recent read ⊢
      generalize ledgerRight.recent rightAfter = right at recent read ⊢
      obtain ⟨found, leftRead⟩ := left
      obtain ⟨foundRight, rightRead⟩ := right
      cases recent
      cases found <;> exact ⟨rfl, read⟩

section

variable {around : Surroundings σ} {aroundRight : Surroundings τ}
  (pairs : around.Pairs aroundRight Alike) (ledgers : ledger.Pairs ledgerRight Alike)
  {follower : Follower} {start : Int64} (valid : ¬start < -1)
  (alike : Alike (ledger.prepare follower.workers first)
    (ledgerRight.prepare follower.workers second))
include pairs ledgers valid alike

/-- Followers are refused alike, or settle their starts alike. -/
theorem settled :
    (∃ error leftWorld rightWorld,
      follower.prepare ledger start first = (.error error, leftWorld) ∧
      follower.prepare ledgerRight start second = (.error error, rightWorld) ∧
      Alike leftWorld rightWorld) ∨
    ∃ index engine leftWorld rightWorld,
      follower.prepare ledger start first = (.ok (index, engine), leftWorld) ∧
      follower.prepare ledgerRight start second = (.ok (index, engine), rightWorld) ∧
      (Machine.settle around index ⟨engine, 0, leftWorld⟩).Paired Alike
        (Machine.settle aroundRight index ⟨engine, 0, rightWorld⟩) := by
  obtain ⟨result, prepared⟩ := ledgers.prepare valid alike
  generalize follower.prepare ledger start first = left at result prepared ⊢
  generalize follower.prepare ledgerRight start second = right at result prepared ⊢
  obtain ⟨ready, leftWorld⟩ := left
  obtain ⟨readyRight, rightWorld⟩ := right
  cases result
  cases ready with
  | error error => exact Or.inl ⟨error, leftWorld, rightWorld, rfl, rfl, prepared⟩
  | ok ready =>
      have machines : Machine.Paired Alike ⟨ready.2, 0, leftWorld⟩ ⟨ready.2, 0, rightWorld⟩ :=
        ⟨rfl, rfl, prepared⟩
      exact Or.inr ⟨ready.1, ready.2, leftWorld, rightWorld, rfl, rfl,
        machines.settle pairs ready.1⟩

/-- What is noted of the one run of a follower is noted of the other. -/
theorem trail {note : Machine σ → List α} {noteRight : Machine τ → List α}
    (same : ∀ {left right}, Machine.Paired Alike left right → note left = noteRight right)
    (final : Int64) (fuel : Nat) :
    follower.trail note around ledger start final fuel first =
      follower.trail noteRight aroundRight ledgerRight start final fuel second := by
  rcases ledgers.settled pairs valid alike with ⟨error, _, _, refused, refusedRight, -⟩ |
    ⟨index, engine, leftWorld, rightWorld, ready, readyRight, settled⟩
  · rw [Follower.trail, Follower.trail, refused, refusedRight]
  · rw [Follower.trail, Follower.trail, ready, readyRight]
    dsimp only [Engine.trail]
    generalize Machine.settle around _ _ = progress at settled ⊢
    generalize Machine.settle aroundRight _ _ = progressRight at settled ⊢
    cases settled with
    | running machines => exact machines.trail pairs ledgers.handler same final fuel
    | ended result machines => rfl

/-- The one run of a follower ends as the other does. -/
theorem sync (final : Int64) (fuel : Nat) :
    Paired Alike (follower.sync around ledger start final fuel first)
      (follower.sync aroundRight ledgerRight start final fuel second) := by
  rcases ledgers.settled pairs valid alike with ⟨error, _, _, refused, refusedRight, prepared⟩ |
    ⟨index, engine, leftWorld, rightWorld, ready, readyRight, settled⟩
  · rw [Follower.sync, Follower.sync, refused, refusedRight]
    exact ⟨rfl, prepared⟩
  · rw [Follower.sync, Follower.sync, ready, readyRight]
    dsimp only [Engine.sync]
    generalize Machine.settle around _ _ = progress at settled ⊢
    generalize Machine.settle aroundRight _ _ = progressRight at settled ⊢
    cases settled with
    | running machines =>
        obtain ⟨ended, last⟩ := machines.run pairs ledgers.handler final fuel
        exact ⟨ended, last.world⟩
    | ended result machines => exact ⟨rfl, machines.world⟩

end

end Ledger.Pairs

end ChainFollower.Sync
