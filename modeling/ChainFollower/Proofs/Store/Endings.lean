import ChainFollower.Proofs.Store.Yields
import ChainFollower.Store.BlockStore

/-!
# How computations end

`Ends fault act before Outcome` says that a computation, begun with one database and whatever
number of accesses was made earlier, ends with a result and a database that have an outcome.
Accesses fail as `fault` has it; a failed access changes nothing.  Each function of the block
store has one lemma that says all that it can end with.
-/

namespace ChainFollower.Store

variable {α β : Type} {fault : Nat → Access → Option String} {before : Database}

/-- From a database, a computation ends with an outcome. -/
def Ends (fault : Nat → Access → Option String) (act : Storing α) (before : Database)
    (Outcome : Except SyncError α → Database → Prop) : Prop :=
  ∀ accesses, ∃ result after count,
    act ⟨before, accesses, fault⟩ = ending result ⟨after, count, fault⟩ ∧ Outcome result after

/-- The outcome of a computation that changes nothing. -/
def Untouched (before : Database) (_ : Except SyncError α) (after : Database) : Prop :=
  after = before

namespace Ends

variable {act : Storing α} {Outcome Weaker : Except SyncError α → Database → Prop}

theorem weaken (ends : Ends fault act before Outcome)
    (weaker : ∀ result after, Outcome result after → Weaker result after) :
    Ends fault act before Weaker := by
  intro accesses
  obtain ⟨result, after, count, ran, outcome⟩ := ends accesses
  exact ⟨result, after, count, ran, weaker result after outcome⟩

theorem pure {value : α} (outcome : Outcome (.ok value) before) :
    Ends fault (pure value) before Outcome :=
  fun accesses => ⟨_, before, accesses, rfl, outcome⟩

theorem throw {error : SyncError} (outcome : Outcome (.error error) before) :
    Ends fault (throw error) before Outcome :=
  fun accesses => ⟨_, before, accesses, rfl, outcome⟩

theorem bind {next : α → Storing β} {Outcome : Except SyncError β → Database → Prop}
    (ends : Ends fault act before fun result between =>
      match result with
      | .ok value => Ends fault (next value) between Outcome
      | .error error => Outcome (.error error) between) :
    Ends fault (act >>= next) before Outcome := by
  intro accesses
  obtain ⟨result, between, count, ran, outcome⟩ := ends accesses
  cases result with
  | error error =>
      refine ⟨.error error, between, count, ?_, outcome⟩
      simp only [Bind.bind, EStateM.bind, ran, ending]
  | ok value =>
      obtain ⟨result, after, last, ranRest, outcomeRest⟩ := outcome count
      refine ⟨result, after, last, ?_, outcomeRest⟩
      rw [← ranRest]
      simp only [Bind.bind, EStateM.bind, ran, ending]

/-- What a computation goes on with matters for the outcomes it may have only. -/
theorem bind_congr {next other : α → Storing β}
    (ends : Ends fault act before fun result between => ∀ value, result = .ok value →
      ∀ accesses, next value ⟨between, accesses, fault⟩ = other value ⟨between, accesses, fault⟩)
    (accesses : Nat) :
    (act >>= next) ⟨before, accesses, fault⟩ = (act >>= other) ⟨before, accesses, fault⟩ := by
  obtain ⟨result, between, count, ran, alike⟩ := ends accesses
  cases result with
  | error error => simp only [Bind.bind, EStateM.bind, ran, ending]
  | ok value =>
      simp only [Bind.bind, EStateM.bind, ran, ending]
      exact alike value rfl count

theorem map {change : α → β} {Outcome : Except SyncError β → Database → Prop}
    (ends : Ends fault act before fun result after => Outcome (result.map change) after) :
    Ends fault (change <$> act) before Outcome := by
  intro accesses
  obtain ⟨result, after, count, ran, outcome⟩ := ends accesses
  refine ⟨result.map change, after, count, ?_, outcome⟩
  cases result <;> simp only [Functor.map, EStateM.map, ran, ending, Except.map]

theorem tryCatch {handle : SyncError → Storing α}
    (ends : Ends fault act before fun result between =>
      match result with
      | .ok value => Outcome (.ok value) between
      | .error error => Ends fault (handle error) between Outcome) :
    Ends fault (tryCatch act handle) before Outcome := by
  intro accesses
  obtain ⟨result, between, count, ran, outcome⟩ := ends accesses
  change ∃ result after count, EStateM.tryCatch act handle _ = _ ∧ _
  delta EStateM.tryCatch
  cases result with
  | ok value =>
      refine ⟨.ok value, between, count, ?_, outcome⟩
      simp only [ran, ending]
  | error error =>
      obtain ⟨result, after, last, ranRest, outcomeRest⟩ := outcome count
      refine ⟨result, after, last, ?_, outcomeRest⟩
      rw [← ranRest]
      simp only [ran, ending]
      rfl

/-- An access fails and changes nothing, or acts on the database. -/
theorem access {request : Access} {act : Database → α × Database}
    (failed : ∀ text, Outcome (.error (.storage (.database text))) before)
    (done : Outcome (.ok (act before).1) (act before).2) :
    Ends fault (Session.access request act) before Outcome := by
  intro accesses
  cases fails : fault accesses request with
  | some text =>
      refine ⟨.error _, before, accesses + 1, ?_, failed text⟩
      simp only [Session.access, fails, ending]
  | none =>
      refine ⟨.ok _, _, accesses + 1, ?_, done⟩
      simp only [Session.access, fails, ending]

/-- An access that cannot fail acts on the database. -/
theorem access_of_forall {request : Access} {act : Database → α × Database}
    (answers : ∀ number, fault number request = none)
    (done : Outcome (.ok (act before).1) (act before).2) :
    Ends fault (Session.access request act) before Outcome := by
  intro accesses
  refine ⟨.ok _, _, accesses + 1, ?_, done⟩
  simp only [Session.access, answers, ending]

theorem get? {key : Bytes} {Outcome : Except SyncError (Option Bytes) → Database → Prop}
    (failed : ∀ text, Outcome (.error (.storage (.database text))) before)
    (found : Outcome (.ok (before.get? key)) before) :
    Ends fault (Session.get? key) before Outcome :=
  access failed found

theorem write {batch : Batch} {Outcome : Except SyncError Unit → Database → Prop}
    (failed : ∀ text, Outcome (.error (.storage (.database text))) before)
    (written : Outcome (.ok ()) (before.write batch)) :
    Ends fault (Session.write batch) before Outcome :=
  access failed written

/-- The number of entries may be looked at. -/
theorem bind_size (next : Nat → Storing α) (ends : Ends fault (next before.size) before Outcome) :
    Ends fault (do let session ← get; next session.database.size) before Outcome :=
  fun accesses => ends accesses

theorem decodeStored [Json.Form α] {bytes : Bytes}
    (read : ∀ value, Json.decode? bytes = some value → Outcome (.ok value) before)
    (failed : ∀ text, Outcome (.error (.serialization text)) before) :
    Ends fault (Store.decodeStored bytes : Storing α) before Outcome := by
  unfold Store.decodeStored
  split
  next value decoded => exact .pure (read value decoded)
  next => exact .throw (failed _)

theorem ofExcept {value : Except SyncError α} (outcome : Outcome value before) :
    Ends fault (MonadExcept.ofExcept value : Storing α) before Outcome := by
  cases value with
  | ok value => exact .pure outcome
  | error error => exact .throw outcome

end Ends

namespace BlockStore

/-! ## Reading -/

/-- The head is what is stored of it, and it is missing only where nothing is stored. -/
theorem ends_head_read :
    Ends fault head before fun result after => after = before ∧
      (∀ id, result = .ok id →
        (before.get? Key.head.bytes).map Json.decode? = some (some id)) ∧
      ∀ error, result = .error error → error.isHeadNotFound = true →
        before.get? Key.head.bytes = none := by
  unfold head
  apply Ends.bind
  apply Ends.get?
  · refine fun _ => ⟨rfl, fun _ none => (nomatch none), ?_⟩
    rintro _ ⟨⟩ missing
    cases missing
  · cases before.get? Key.head.bytes with
    | none => exact .throw ⟨rfl, fun _ none => (nomatch none), fun _ _ _ => rfl⟩
    | some bytes =>
        apply Ends.decodeStored
        · intro id decoded
          refine ⟨rfl, ?_, fun _ none => nomatch none⟩
          rintro _ ⟨⟩
          exact congrArg some decoded
        · refine fun _ => ⟨rfl, fun _ none => (nomatch none), ?_⟩
          rintro _ ⟨⟩ missing
          cases missing

theorem ends_head : Ends fault head before (Untouched before) :=
  ends_head_read.weaken fun _ _ outcome => outcome.1

/-- So is the head of a store that may be empty. -/
theorem ends_head?_read :
    Ends fault head? before fun result after => after = before ∧
      ∀ found, result = .ok found →
        (before.get? Key.head.bytes).map Json.decode? = found.map some := by
  unfold head?
  apply Ends.tryCatch
  apply Ends.map
  apply ends_head_read.weaken
  rintro result _ ⟨rfl, read, missing⟩
  cases result with
  | ok id =>
      refine ⟨rfl, ?_⟩
      rintro _ ⟨⟩
      exact read id rfl
  | error error =>
      dsimp only [Except.map]
      split
      next notFound =>
        apply Ends.pure
        refine ⟨rfl, ?_⟩
        rintro _ ⟨⟩
        rw [missing error rfl notFound]
        rfl
      next => exact .throw ⟨rfl, fun _ none => nomatch none⟩

theorem ends_head? : Ends fault head? before (Untouched before) :=
  ends_head?_read.weaken fun _ _ outcome => outcome.1

/-- A hash is looked up, and nothing is changed. -/
theorem ends_contains (hash : String) :
    Ends fault (contains hash) before fun result after => after = before ∧
      ∀ stored, result = .ok stored →
        stored = (before.get? (Key.block hash).bytes).isSome := by
  unfold contains
  apply Ends.bind
  apply Ends.get?
  · exact fun _ => ⟨rfl, fun _ none => nomatch none⟩
  · apply Ends.pure
    refine ⟨rfl, ?_⟩
    rintro _ ⟨⟩
    rfl

/-- A block that is found is what is stored under its hash, and has its index. -/
theorem ends_block (id : BlockId) :
    Ends fault (block id) before fun result after => after = before ∧
      ∀ found, result = .ok found → found.id.index = id.index ∧
        (before.get? (Key.block id.hash).bytes).map Json.decode? = some (some found) := by
  unfold block
  apply Ends.bind
  apply Ends.get?
  · exact fun _ => ⟨rfl, fun _ none => nomatch none⟩
  · cases before.get? (Key.block id.hash).bytes with
    | none => exact .throw ⟨rfl, fun _ none => nomatch none⟩
    | some bytes =>
        apply Ends.bind
        apply Ends.decodeStored
        · intro block decoded
          dsimp only
          split
          next sameIndex =>
            apply Ends.pure
            refine ⟨rfl, ?_⟩
            rintro _ ⟨⟩
            exact ⟨sameIndex, congrArg some decoded⟩
          next => exact .throw ⟨rfl, fun _ none => nomatch none⟩
        · exact fun _ => ⟨rfl, fun _ none => nomatch none⟩

theorem ends_blockAt (index : Int64) : Ends fault (blockAt index) before (Untouched before) := by
  unfold blockAt
  apply Ends.bind
  apply Ends.get?
  · exact fun _ => rfl
  · cases before.get? (Key.index index).bytes with
    | none => exact .throw rfl
    | some bytes =>
        cases found : Bytes.toString? bytes with
        | none =>
            simp only [found]
            exact .throw rfl
        | some hash =>
            simp only [found]
            exact (ends_block ⟨index, hash⟩).weaken fun _ _ outcome => outcome.1

theorem ends_blocksFrom (first : Int64) (count : Nat) :
    Ends fault (blocksFrom first count) before (Untouched before) := by
  induction count generalizing first with
  | zero => exact .pure rfl
  | succ count ih =>
      unfold blocksFrom
      apply Ends.bind
      apply Ends.tryCatch
      apply Ends.map
      apply (ends_blockAt first).weaken
      have rest : ∀ found : Option Block, Ends fault
          (do
            let rest ← blocksFrom (first + 1) count
            Pure.pure (found.toList ++ rest)) before (Untouched before) := by
        intro found
        apply Ends.bind
        apply (ih (first + 1)).weaken
        rintro result _ rfl
        cases result with
        | error error => rfl
        | ok rest => exact .pure rfl
      rintro result _ rfl
      cases result with
      | ok block => exact rest (some block)
      | error error =>
          dsimp only [Except.map]
          split
          · exact .pure (rest none)
          · exact .throw rfl

theorem ends_makeRoom (store : BlockStore) :
    Ends fault store.makeRoom before (Untouched before) := by
  unfold makeRoom
  split
  · exact .pure rfl
  · exact .throw rfl

theorem ends_recent (store : BlockStore) :
    Ends fault store.recent before (Untouched before) := by
  unfold recent
  apply Ends.bind
  apply Ends.tryCatch
  apply ends_head?.weaken
  rintro result _ rfl
  cases result with
  | error error => exact .pure (.pure rfl)
  | ok found =>
      cases found with
      | none => exact .pure rfl
      | some head =>
          apply Ends.bind
          apply (ends_makeRoom store).weaken
          rintro result _ rfl
          cases result with
          | error error => rfl
          | ok room =>
              apply Ends.tryCatch
              apply (ends_blocksFrom _ _).weaken
              rintro result _ rfl
              cases result with
              | ok blocks => rfl
              | error error => exact .pure rfl

theorem ends_headBlock : Ends fault headBlock before (Untouched before) := by
  unfold headBlock
  apply Ends.bind
  apply ends_head.weaken
  rintro result _ rfl
  cases result with
  | error error => rfl
  | ok id => exact (ends_block id).weaken fun _ _ outcome => outcome.1

theorem ends_atTip (now delay : Int64) :
    Ends fault (atTip now delay) before (Untouched before) := by
  unfold atTip
  apply Ends.bind
  apply ends_head?.weaken
  rintro result _ rfl
  cases result with
  | error error => rfl
  | ok found =>
      cases found with
      | none => exact .pure rfl
      | some id =>
          apply Ends.bind
          apply (ends_block id).weaken
          rintro result _ ⟨rfl, -⟩
          cases result with
          | error error => rfl
          | ok newest => exact .pure rfl

/-! ## Adding and removing -/

/-- An addition fails and changes nothing, or stores a block whose hash was not stored, by one
batch. -/
def Added (store : BlockStore) (block : Block) (before : Database) :
    Except SyncError Unit → Database → Prop
  | .error _, after => after = before
  | .ok (), after => before.get? (Key.block block.id.hash).bytes = none ∧ ∃ staged,
      Worker.stage (store.workers.map (·.adding block)) (additions block) = .ok staged ∧
      after = before.write staged

/-- The head that is stored is the parent of a block that is added. -/
theorem ends_add_child (store : BlockStore) (block : Block) :
    Ends fault (store.add block) before fun result after => Added store block before result after ∧
      (result = .ok () → ∀ id, (before.get? Key.head.bytes).map Json.decode? = some (some id) →
        block.parent = id) := by
  unfold add
  apply Ends.bind
  apply (ends_contains _).weaken
  rintro result before ⟨rfl, known⟩
  cases result with
  | error error => exact ⟨rfl, fun none => nomatch none⟩
  | ok found =>
      dsimp only
      split
      next => exact .bind (.throw ⟨rfl, fun none => nomatch none⟩)
      next missing =>
        have absent : before.get? (Key.block block.id.hash).bytes = none := by
          have stored := known found rfl
          rw [← Option.not_isSome_iff_eq_none, ← stored]
          exact missing
        have written (child : ∀ id,
            (before.get? Key.head.bytes).map Json.decode? = some (some id) → block.parent = id) :
            Ends fault
              (do
                let batch ← MonadExcept.ofExcept <|
                  Worker.stage (store.workers.map (·.adding block)) (additions block)
                Session.write batch) before fun result after =>
              Added store block before result after ∧ (result = .ok () → ∀ id,
                (before.get? Key.head.bytes).map Json.decode? = some (some id) →
                  block.parent = id) := by
          apply Ends.bind
          apply Ends.ofExcept
          cases staged : Worker.stage (store.workers.map (·.adding block)) (additions block) with
          | error error => exact ⟨rfl, fun none => nomatch none⟩
          | ok batch =>
              exact .write (fun _ => ⟨rfl, fun none => nomatch none⟩)
                ⟨⟨absent, batch, staged, rfl⟩, fun _ => child⟩
        apply Ends.bind
        apply ends_head?_read.weaken
        rintro result before ⟨rfl, read⟩
        cases result with
        | error error => exact ⟨rfl, fun none => nomatch none⟩
        | ok head =>
            have stored := read head rfl
            cases head with
            | none =>
                refine written fun id same => ?_
                cases stored.symm.trans same
            | some head =>
                dsimp only
                split
                next => exact .bind (.throw ⟨rfl, fun none => nomatch none⟩)
                next child =>
                  refine written fun id same => ?_
                  cases stored.symm.trans same
                  exact Decidable.not_not.1 child

theorem ends_add (store : BlockStore) (block : Block) :
    Ends fault (store.add block) before (Added store block before) :=
  (ends_add_child store block).weaken fun _ _ outcome => outcome.1

/-- What becomes the head when a block is removed. -/
def below? (database : Database) (block : Block) : Option BlockId :=
  if block.isGenesis then none
  else if (database.get? (Key.block block.parent.hash).bytes).isSome then some block.parent
  else none

/-- A removal fails and changes nothing, or removes the head that is stored and the block that is
stored under its hash, by one batch. -/
def HeadRemoved (store : BlockStore) (id : BlockId) (before : Database) :
    Except SyncError Unit → Database → Prop
  | .error _, after => after = before
  | .ok (), after => (before.get? Key.head.bytes).map Json.decode? = some (some id) ∧
      ∃ block staged,
        (before.get? (Key.block id.hash).bytes).map Json.decode? = some (some block) ∧
        Worker.stage (store.workers.map (·.removing block)) (removals id (below? before block)) =
          .ok staged ∧
        after = before.write staged

theorem ends_remove_head (store : BlockStore) (id : BlockId) :
    Ends fault (store.remove id) before (HeadRemoved store id before) := by
  unfold remove
  apply Ends.bind
  apply ends_head_read.weaken
  rintro result before ⟨rfl, read, -⟩
  cases result with
  | error error => rfl
  | ok head =>
      dsimp only
      split
      next => exact .bind (.throw rfl)
      next isHead =>
        obtain rfl : head = id := Decidable.not_not.1 isHead
        have stored := read head rfl
        apply Ends.bind
        apply (ends_block head).weaken
        rintro result before ⟨rfl, found⟩
        cases result with
        | error error => rfl
        | ok block =>
            have written (newHead : Option BlockId) (below : newHead = below? before block) :
                Ends fault
                  (do
                    let batch ← MonadExcept.ofExcept <|
                      Worker.stage (store.workers.map (·.removing block)) (removals head newHead)
                    Session.write batch) before (HeadRemoved store head before) := by
              subst below
              apply Ends.bind
              apply Ends.ofExcept
              cases staged : Worker.stage (store.workers.map (·.removing block))
                  (removals head (below? before block)) with
              | error error => rfl
              | ok batch =>
                  exact .write (fun _ => rfl) ⟨stored, block, batch, (found block rfl).2, staged, rfl⟩
            dsimp only
            split
            next genesis =>
              exact .bind (.pure (written _ (by rw [below?, if_pos genesis]; rfl)))
            next notGenesis =>
              apply Ends.bind
              apply (ends_contains _).weaken
              rintro result _ ⟨rfl, known⟩
              cases result with
              | error error => rfl
              | ok linked =>
                  refine written _ ?_
                  rw [below?, if_neg notGenesis, known linked rfl]

/-- A removal fails and changes nothing, or removes a block whose hash was stored, by one
batch. -/
def Removed (store : BlockStore) (id : BlockId) (before : Database) :
    Except SyncError Unit → Database → Prop
  | .error _, after => after = before
  | .ok (), after => (before.get? (Key.block id.hash).bytes).isSome = true ∧
      ∃ block newHead staged,
        Worker.stage (store.workers.map (·.removing block)) (removals id newHead) = .ok staged ∧
        after = before.write staged

theorem ends_remove (store : BlockStore) (id : BlockId) :
    Ends fault (store.remove id) before (Removed store id before) := by
  apply (ends_remove_head store id).weaken
  intro result after outcome
  cases result with
  | error error => exact outcome
  | ok =>
      obtain ⟨-, block, staged, stored, ran, rfl⟩ := outcome
      obtain ⟨bytes, found, -⟩ := Option.map_eq_some_iff.1 stored
      exact ⟨Option.isSome_of_eq_some found, block, _, staged, ran, rfl⟩

section

variable {Kept : Database → Prop} {store : BlockStore}
  (removes : ∀ id before, Kept before →
    Ends fault (store.remove id) before fun _ after => Kept after)
include removes

/-- Removals, as many as there are, keep what one removal keeps. -/
theorem ends_rewind_kept (start : Int64) (fuel : Nat) (head : BlockId) (kept : Kept before) :
    Ends fault (store.rewind start fuel head) before fun _ after => Kept after := by
  induction fuel generalizing before head with
  | zero => exact .pure kept
  | succ fuel ih =>
      unfold rewind
      split
      · apply Ends.bind
        apply (removes head before kept).weaken
        intro result between keptBetween
        cases result with
        | error error => exact keptBetween
        | ok =>
            apply Ends.bind
            apply ends_head?.weaken
            rintro result _ rfl
            cases result with
            | error error => exact keptBetween
            | ok found =>
                cases found with
                | none => exact .pure keptBetween
                | some next => exact ih next keptBetween
      · exact .pure kept

/-- So does a new start. -/
theorem ends_setStart_kept (start : Int64) (kept : Kept before) :
    Ends fault (store.setStart start) before fun _ after => Kept after := by
  unfold setStart
  split
  next => exact .bind (.throw kept)
  next =>
    apply Ends.bind
    apply ends_head?.weaken
    rintro result before rfl
    cases result with
    | error error => exact kept
    | ok found =>
        cases found with
        | none => exact .pure kept
        | some head =>
            dsimp only
            split
            · exact .bind (.throw kept)
            · exact Ends.bind_size (fun entries => store.rewind start (entries + 1) head)
                (ends_rewind_kept removes start _ head kept)

end

/-- What removals that are granted keep, a new start keeps. -/
theorem ends_setStart {Kept : Database → Prop} {store : BlockStore}
    (removed : ∀ id before after, Kept before → Removed store id before (.ok ()) after →
      Kept after) (start : Int64) (kept : Kept before) :
    Ends fault (store.setStart start) before fun _ after => Kept after := by
  refine ends_setStart_kept (fun id before kept => ?_) start kept
  apply (ends_remove store id).weaken
  intro result after outcome
  cases result with
  | error error =>
      cases outcome
      exact kept
  | ok => exact removed id before after kept outcome

end BlockStore

/-! ## Looking up transactions -/

theorem ends_mapM {element : Type} {read : element → Storing β}
    (untouched : ∀ entry, Ends fault (read entry) before (Untouched before))
    (entries : List element) : Ends fault (entries.mapM read) before (Untouched before) := by
  induction entries with
  | nil => exact .pure rfl
  | cons entry rest ih =>
      rw [List.mapM_cons]
      apply Ends.bind
      apply (untouched entry).weaken
      rintro result _ rfl
      cases result with
      | error error => rfl
      | ok value =>
          apply Ends.bind
          apply ih.weaken
          rintro result _ rfl
          cases result with
          | error error => rfl
          | ok values => exact .pure rfl

theorem ends_findTransaction (hash : String) :
    Ends fault (findTransaction hash) before (Untouched before) := by
  unfold findTransaction
  apply Ends.bind
  apply Ends.access
  · exact fun _ => rfl
  · exact ends_mapM (fun (entry : Entry) => .decodeStored (fun _ _ => rfl) fun _ => rfl) _

end ChainFollower.Store
