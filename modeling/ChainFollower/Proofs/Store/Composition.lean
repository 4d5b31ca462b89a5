import ChainFollower.Proofs.Store.Endings

/-!
# How computations are put together

`Composed Raised act` says that a computation is put together from reads of single entries, batches
and failures, leaves counters alone and hides no failed access; `Raised` is what it fails with of
its own.  Each function of the block store is composed, and what holds of composed computations
follows the ways of putting them together once for all of them.
-/

namespace ChainFollower.Store

variable {α β : Type} {Raised : SyncError → Prop} {act : Storing α}

/-- A computation of reads, batches and failures of its own, in which failed accesses show. -/
inductive Composed (Raised : SyncError → Prop) : {α : Type} → Storing α → Prop
  | pure {α : Type} (value : α) : Composed Raised (pure value)
  | throw {α : Type} {error : SyncError} (raised : Raised error) :
      Composed Raised (throw error : Storing α)
  | get? {key : Bytes} (other : ∀ name, key ≠ (Key.counter name).bytes) :
      Composed Raised (Session.get? key)
  | write (batch : Batch) : Composed Raised (Session.write batch)
  | bind {α β : Type} {act : Storing α} {next : α → Storing β} (first : Composed Raised act)
      (rest : ∀ value, Composed Raised (next value)) : Composed Raised (act >>= next)
  | rescue {α : Type} {act : Storing α} {handle : SyncError → Storing α}
      (first : Composed Raised act) (rest : ∀ error, Raised error → Composed Raised (handle error))
      (shown : ∀ text, handle (.storage (.database text)) = throw (.storage (.database text))) :
      Composed Raised (tryCatch act handle)

namespace Composed

theorem map (change : α → β) (composed : Composed Raised act) : Composed Raised (change <$> act) := by
  rw [map_eq_pure_bind]
  exact composed.bind fun value => .pure (change value)

/-- Nothing follows a failure. -/
theorem throw_bind {error : SyncError} (raised : Raised error) (next : α → Storing β) :
    Composed Raised (MonadExcept.throw error >>= next) :=
  .throw raised

theorem decodeStored [Json.Form α] {bytes : Bytes} (raised : ∀ text, Raised (.serialization text)) :
    Composed Raised (Store.decodeStored bytes : Storing α) := by
  unfold Store.decodeStored
  split
  · exact .pure _
  · exact .throw (raised _)

theorem ofExcept {value : Except SyncError α} (raised : ∀ error, value = .error error → Raised error) :
    Composed Raised (MonadExcept.ofExcept value : Storing α) := by
  cases value with
  | ok value => exact .pure value
  | error error => exact .throw (raised error rfl)

/-! ## Failing accesses -/

/-- Whichever accesses fail, a composed computation ends with the failure of one, or as it does
where none fails, and then fails with what it raises only. -/
theorem ends (composed : Composed Raised act) (fault : Nat → Access → Option String)
    (before : Database) :
    Ends fault act before fun result after =>
      (∃ text, result = .error (.storage (.database text))) ∨
        Yields act before result after ∧ ∀ error, result = .error error → Raised error := by
  induction composed generalizing before with
  | pure value => exact .pure (Or.inr ⟨.pure value before, fun _ none => nomatch none⟩)
  | throw raised =>
      refine .throw (Or.inr ⟨.throw _ before, ?_⟩)
      rintro _ ⟨⟩
      exact raised
  | get? other =>
      refine .get? (fun text => Or.inl ⟨text, rfl⟩) (Or.inr ⟨?_, fun _ none => nomatch none⟩)
      refine .access ?_ _ before
      rintro ⟨name, same⟩
      exact other name same
  | write batch =>
      exact .write (fun text => Or.inl ⟨text, rfl⟩)
        (Or.inr ⟨.write batch before, fun _ none => nomatch none⟩)
  | bind _ _ ihFirst ihRest =>
      refine .bind ((ihFirst before).weaken ?_)
      rintro result between (⟨text, rfl⟩ | ⟨yields, raised⟩)
      · exact Or.inl ⟨text, rfl⟩
      · cases result with
        | error error =>
            refine Or.inr ⟨.bind_error yields, ?_⟩
            rintro _ ⟨⟩
            exact raised error rfl
        | ok value =>
            refine (ihRest value between).weaken ?_
            rintro result after (failed | ⟨yieldsRest, raisedRest⟩)
            · exact Or.inl failed
            · exact Or.inr ⟨yields.bind yieldsRest, raisedRest⟩
  | rescue _ _ shown ihFirst ihRest =>
      refine .tryCatch ((ihFirst before).weaken ?_)
      rintro result between (⟨text, rfl⟩ | ⟨yields, raised⟩)
      · dsimp only
        rw [shown]
        exact .throw (Or.inl ⟨text, rfl⟩)
      · cases result with
        | ok value => exact Or.inr ⟨yields.tryCatch, fun _ none => nomatch none⟩
        | error error =>
            refine (ihRest error (raised error rfl) between).weaken ?_
            rintro result after (failed | ⟨yieldsRest, raisedRest⟩)
            · exact Or.inl failed
            · exact Or.inr ⟨yields.tryCatch_error yieldsRest, raisedRest⟩

end Composed

/-! ## The block store -/

/-- Whether an error refuses a new start. -/
def RefusesStart : SyncError → Prop
  | .storage (.negativeStartIndex _) => True
  | .storage (.startIndexAhead _ _) => True
  | _ => False

/-- The stage at which a block is refused. -/
theorem Worker.exists_of_stage_error {stages : List (Batch → Except SyncError Batch)}
    {batch : Batch} {error : SyncError} (refused : stage stages batch = .error error) :
    ∃ step ∈ stages, ∃ staged, step staged = .error error := by
  induction stages generalizing batch with
  | nil => cases refused
  | cons step rest ih =>
      rw [stage, List.foldlM_cons] at refused
      cases staged : step batch with
      | error other =>
          rw [staged] at refused
          cases refused
          exact ⟨step, List.mem_cons_self, batch, staged⟩
      | ok between =>
          rw [staged] at refused
          obtain ⟨later, member, stopped⟩ := ih refused
          exact ⟨later, List.mem_cons_of_mem _ member, stopped⟩

namespace BlockStore

section

variable (own : ∀ error, ¬RefusesStart error → Raised error)
include own

theorem composed_head : Composed Raised head := by
  unfold head
  refine .bind (.get? Key.ofChain_head.ne_counter) fun found => ?_
  cases found with
  | none => exact .throw (own _ nofun)
  | some bytes => exact .decodeStored fun _ => own _ nofun

theorem composed_head? : Composed Raised head? := by
  unfold head?
  refine .rescue ((composed_head own).map some) (fun error raised => ?_) fun _ => rfl
  split
  · exact .pure none
  · exact .throw raised

theorem composed_block (id : BlockId) : Composed Raised (block id) := by
  unfold block
  refine .bind (.get? (Key.ofChain_block id.hash).ne_counter) fun found => ?_
  cases found with
  | none => exact .throw (own _ nofun)
  | some bytes =>
      refine .bind (.decodeStored fun _ => own _ nofun) fun block => ?_
      split
      · exact .pure block
      · exact .throw (own _ nofun)

theorem composed_blockAt (index : Int64) : Composed Raised (blockAt index) := by
  unfold blockAt
  refine .bind (.get? (Key.ofChain_index index).ne_counter) fun found => ?_
  cases found with
  | none => exact .throw (own _ nofun)
  | some bytes =>
      dsimp only
      split
      · exact composed_block own _
      · exact .throw (own _ nofun)

theorem composed_blocksFrom (first : Int64) (count : Nat) :
    Composed Raised (blocksFrom first count) := by
  induction count generalizing first with
  | zero => exact .pure []
  | succ count ih =>
      unfold blocksFrom
      refine .bind ?_ fun found => (ih (first + 1)).bind fun rest => .pure _
      refine .rescue ((composed_blockAt own first).map some) (fun error raised => ?_) fun _ => rfl
      split
      · exact .pure none
      · exact .throw raised

end

theorem composed_contains (hash : String) : Composed Raised (contains hash) := by
  unfold contains
  exact .bind (.get? (Key.ofChain_block hash).ne_counter) fun found => .pure _

variable {store : BlockStore} (own : ∀ error, ¬RefusesStart error → Raised error)
include own

/-- Additions fail with what the store or one of its workers refuses a block with. -/
theorem composed_add (block : Block)
    (refused : ∀ worker ∈ store.workers, ∀ batch error,
      worker.adding block batch = .error error → Raised error) :
    Composed Raised (store.add block) := by
  have written : Composed Raised
      (do
        let batch ← MonadExcept.ofExcept <|
          Worker.stage (store.workers.map (·.adding block)) (additions block)
        Session.write batch) := by
    refine .bind (.ofExcept fun error stopped => ?_) fun batch => .write batch
    obtain ⟨step, member, staged, stopped⟩ := Worker.exists_of_stage_error stopped
    obtain ⟨worker, among, rfl⟩ := List.mem_map.1 member
    exact refused worker among staged error stopped
  unfold add
  refine .bind (composed_contains _) fun known => ?_
  dsimp only
  split
  · refine .throw_bind ?_ _
    exact own _ nofun
  · refine .bind (composed_head? own) fun found => ?_
    cases found with
    | none => exact written
    | some head =>
        dsimp only
        split
        · refine .throw_bind ?_ _
          exact own _ nofun
        · exact written

/-- So do removals. -/
theorem composed_remove (id : BlockId)
    (refused : ∀ worker ∈ store.workers, ∀ block batch error,
      worker.removing block batch = .error error → Raised error) :
    Composed Raised (store.remove id) := by
  have written (block : Block) (newHead : Option BlockId) : Composed Raised
      (do
        let batch ← MonadExcept.ofExcept <|
          Worker.stage (store.workers.map (·.removing block)) (removals id newHead)
        Session.write batch) := by
    refine .bind (.ofExcept fun error stopped => ?_) fun batch => .write batch
    obtain ⟨step, member, staged, stopped⟩ := Worker.exists_of_stage_error stopped
    obtain ⟨worker, among, rfl⟩ := List.mem_map.1 member
    exact refused worker among block staged error stopped
  unfold remove
  refine .bind (composed_head own) fun head => ?_
  dsimp only
  split
  · refine .throw_bind ?_ _
    exact own _ nofun
  · refine .bind (composed_block own id) fun block => ?_
    split
    · exact .bind (.pure false) fun linked => written block _
    · exact .bind (composed_contains _) fun linked => written block _

/-- So do removals one after another. -/
theorem composed_rewind (start : Int64) (fuel : Nat) (head : BlockId)
    (refused : ∀ worker ∈ store.workers, ∀ block batch error,
      worker.removing block batch = .error error → Raised error) :
    Composed Raised (store.rewind start fuel head) := by
  induction fuel generalizing head with
  | zero => exact .pure ()
  | succ fuel ih =>
      unfold rewind
      split
      · refine .bind (composed_remove own head refused) fun _ => ?_
        refine .bind (composed_head? own) fun found => ?_
        cases found with
        | none => exact .pure ()
        | some next => exact ih next
      · exact .pure ()

end BlockStore

end ChainFollower.Store
