import ChainFollower.Proofs.Store.Composition
import ChainFollower.Proofs.Store.Dangling

/-!
# All or nothing

Whatever is in the database, whatever its workers stage or refuse and whichever accesses fail, a
store that fails to add or to remove a block leaves the database as it was.  A new start that fails
leaves it as complete removals of successive heads do.
-/

namespace ChainFollower.Store

variable {fault : Nat → Access → Option String} {store : BlockStore} {before after : Database}

/-- A computation has two outcomes at once. -/
theorem Ends.and {α : Type} {act : Storing α} {Outcome Other : Except SyncError α → Database → Prop}
    (ends : Ends fault act before Outcome) (endsOther : Ends fault act before Other) :
    Ends fault act before fun result after => Outcome result after ∧ Other result after := by
  intro accesses
  obtain ⟨result, after, count, ran, outcome⟩ := ends accesses
  obtain ⟨same, afterSame, countSame, ranSame, other⟩ := endsOther accesses
  refine ⟨result, after, count, ran, outcome, ?_⟩
  rw [ran] at ranSame
  cases result <;> cases same <;> cases ranSame <;> exact other

/-- A computation that raises no refusal of a start yields what it ends with, or fails
otherwise. -/
theorem Composed.ends_patient {α : Type} {act : Storing α}
    (composed : Composed (fun error => ¬RefusesStart error) act) :
    Ends fault act before fun result after =>
      match result with
      | .ok value => Yields act before (.ok value) after
      | .error error => ¬RefusesStart error := by
  refine (composed.ends fault before).weaken ?_
  rintro result after (⟨text, rfl⟩ | ⟨yields, raised⟩)
  · exact id
  · cases result with
    | ok value => exact yields
    | error error => exact raised error rfl

/-! ## Complete removals -/

/-- So many complete removals, each of the head at its time, lead from one database to another. -/
inductive Beheads (store : BlockStore) : Nat → Database → Database → Prop
  | none (database : Database) : Beheads store 0 database database
  | head {count : Nat} {id : BlockId} {before between after : Database}
      (isHead : Yields BlockStore.head before (.ok id) before)
      (removed : Yields (store.remove id) before (.ok ()) between)
      (rest : Beheads store count between after) : Beheads store (count + 1) before after

namespace BlockStore

/-- The workers refuse to let a block go: to stage its removal fails with the error. -/
def Retains (store : BlockStore) (error : SyncError) (id : BlockId) (database : Database) :
    Prop :=
  ∃ stored newHead, Yields (block id) database (.ok stored) database ∧
    Worker.stage (store.workers.map (·.removing stored)) (removals id newHead) = .error error

/-- Only workers make a removal fail with the refusal of a start. -/
theorem ends_remove_retains (store : BlockStore) (id : BlockId) :
    Ends fault (store.remove id) before fun result _ =>
      ∀ error, result = .error error → RefusesStart error → store.Retains error id before := by
  unfold remove
  refine .bind ((ends_head.and (composed_head fun _ patient => patient).ends_patient).weaken ?_)
  rintro result before ⟨rfl, isHead⟩
  cases result with
  | error other =>
      rintro _ ⟨⟩ refuses
      exact absurd refuses isHead
  | ok head =>
      dsimp only
      split
      · refine .bind (.throw ?_)
        rintro _ ⟨⟩ refuses
        exact refuses.elim
      refine .bind (((ends_block id).and
        (composed_block (fun _ patient => patient) id).ends_patient).weaken ?_)
      rintro result before ⟨⟨rfl, -⟩, isStored⟩
      cases result with
      | error other =>
          rintro _ ⟨⟩ refuses
          exact absurd refuses isStored
      | ok stored =>
          have written (newHead : Option BlockId) :
              Ends fault
                (do
                  let batch ← MonadExcept.ofExcept <|
                    Worker.stage (store.workers.map (·.removing stored)) (removals id newHead)
                  Session.write batch) before fun result _ =>
                ∀ error, result = .error error → RefusesStart error →
                  store.Retains error id before := by
            refine .bind (.ofExcept ?_)
            cases staged : Worker.stage (store.workers.map (·.removing stored))
                (removals id newHead) with
            | error error =>
                rintro _ ⟨⟩ -
                exact ⟨stored, newHead, isStored, staged⟩
            | ok batch =>
                refine .write (fun text => ?_) fun _ none => nomatch none
                rintro _ ⟨⟩ refuses
                exact refuses.elim
          dsimp only
          split
          · exact .bind (.pure (written _))
          · refine .bind (((ends_contains _).and
              (composed_contains _).ends_patient).weaken ?_)
            rintro result before ⟨⟨rfl, -⟩, known⟩
            cases result with
            | error other =>
                rintro _ ⟨⟩ refuses
                exact absurd refuses known
            | ok linked => exact written _

/-- The workers let the removal of the head fail with the error. -/
def RefusesHead (store : BlockStore) (error : SyncError) (database : Database) : Prop :=
  ∃ id, Yields head database (.ok id) database ∧
    Yields (store.remove id) database (.error error) database ∧ store.Retains error id database

/-- A removal fails and changes nothing, or is complete.  If it fails with the refusal of a start,
the workers refuse. -/
theorem ends_remove_complete (store : BlockStore) (id : BlockId) :
    Ends fault (store.remove id) before fun result after =>
      match result with
      | .error error => after = before ∧ (RefusesStart error →
          Yields (store.remove id) before (.error error) before ∧ store.Retains error id before)
      | .ok () => Yields (store.remove id) before (.ok ()) after := by
  have composed : Composed (fun _ => True) (store.remove id) :=
    composed_remove (fun _ _ => trivial) id fun _ _ _ _ _ _ => trivial
  refine (((ends_remove store id).and (ends_remove_retains store id)).and
    (composed.ends fault before)).weaken ?_
  rintro result after ⟨⟨outcome, retains⟩, ended⟩
  cases result with
  | ok =>
      obtain ⟨text, failed⟩ | ⟨yields, -⟩ := ended
      · cases failed
      · exact yields
  | error error =>
      obtain rfl : after = before := outcome
      refine ⟨rfl, fun refuses => ⟨?_, retains error rfl refuses⟩⟩
      obtain ⟨text, failed⟩ | ⟨yields, -⟩ := ended
      · cases failed
        exact refuses.elim
      · exact yields

/-- A head that is found can always be read, and to look for it does not refuse a start. -/
theorem ends_head?_readable :
    Ends fault head? before fun result after => after = before ∧
      (∀ id, result = .ok (some id) → Yields head before (.ok id) before) ∧
      ∀ error, result = .error error → ¬RefusesStart error := by
  unfold head?
  refine .tryCatch (.map
    ((ends_head.and (composed_head fun _ patient => patient).ends_patient).weaken ?_))
  rintro result _ ⟨rfl, ended⟩
  cases result with
  | error error =>
      dsimp only [Except.map]
      split
      · exact .pure ⟨rfl, fun _ none => (nomatch none), fun _ none => nomatch none⟩
      · refine .throw ⟨rfl, fun _ failed => (nomatch failed), ?_⟩
        rintro _ ⟨⟩
        exact ended
  | ok found =>
      refine ⟨rfl, ?_, fun _ none => nomatch none⟩
      rintro id ⟨⟩
      exact ended

/-- Removals of heads, as many as there are, are complete ones, and they stop with the refusal of
a start only if the workers refuse the head. -/
theorem ends_rewind_complete (store : BlockStore) (start : Int64) (fuel : Nat) {head : BlockId}
    (isHead : Yields BlockStore.head before (.ok head) before) :
    Ends fault (store.rewind start fuel head) before fun result after =>
      (∃ count, Beheads store count before after) ∧
        ∀ error, result = .error error → RefusesStart error → store.RefusesHead error after := by
  induction fuel generalizing before head with
  | zero => exact .pure ⟨⟨0, .none before⟩, fun _ none => nomatch none⟩
  | succ fuel ih =>
      unfold rewind
      split
      · refine .bind ((ends_remove_complete store head).weaken ?_)
        intro result between outcome
        cases result with
        | error error =>
            obtain ⟨rfl, refused⟩ := outcome
            refine ⟨⟨0, .none between⟩, ?_⟩
            rintro _ ⟨⟩ refuses
            exact ⟨head, isHead, refused refuses⟩
        | ok =>
            refine .bind (ends_head?_readable.weaken ?_)
            rintro result _ ⟨rfl, readable, patient⟩
            cases result with
            | error error =>
                refine ⟨⟨1, .head isHead outcome (.none _)⟩, ?_⟩
                rintro _ ⟨⟩ refuses
                exact absurd refuses (patient error rfl)
            | ok found =>
                cases found with
                | none =>
                    exact .pure ⟨⟨1, .head isHead outcome (.none _)⟩, fun _ none => nomatch none⟩
                | some next =>
                    refine (ih (readable next rfl)).weaken ?_
                    rintro _ after ⟨⟨count, beheads⟩, refused⟩
                    exact ⟨⟨count + 1, .head isHead outcome beheads⟩, refused⟩
      · exact .pure ⟨⟨0, .none before⟩, fun _ none => nomatch none⟩

/-! ## New starts -/

/-- A start that is negative or leaves a gap above the head. -/
def Barred (start : Int64) (database : Database) : Prop :=
  start < 0 ∨ ∃ id, Yields head database (.ok id) database ∧ id.index + 1 < start

/-- A new start with `limit` removals at most. -/
def setStartWithin (store : BlockStore) (limit : Nat) (start : Int64) : Storing Unit := do
  if start < 0 then
    throw (.storage (.negativeStartIndex start))
  if let some head ← head? then
    if head.index + 1 < start then
      throw (.storage (.startIndexAhead head.index start))
    store.rewind start limit head

/-- A new start makes no more removals than there are entries. -/
theorem setStart_eq_setStartWithin (store : BlockStore) (start : Int64) (session : Session) :
    store.setStart start session =
      store.setStartWithin (session.database.size + 1) start session := by
  obtain ⟨database, accesses, fault⟩ := session
  unfold setStart setStartWithin
  by_cases negative : start < 0
  · rw [if_pos negative, if_pos negative]
    rfl
  · rw [if_neg negative, if_neg negative]
    refine Ends.bind_congr (ends_head?.weaken ?_) accesses
    rintro _ _ rfl found - accesses
    cases found with
    | none => rfl
    | some head =>
        dsimp only
        split
        · rfl
        · rfl

/-- Complete removals lead to the database, none of them if the start is barred.  The start is
refused only if it is barred, or if the workers refuse the head that is left with the same
error. -/
def Beheaded (store : BlockStore) (start : Int64) (before : Database)
    (result : Except SyncError Unit) (after : Database) : Prop :=
  ∃ count, Beheads store count before after ∧ (Barred start before → count = 0) ∧
    ∀ error, result = .error error → RefusesStart error →
      Barred start before ∨ store.RefusesHead error after

/-- A start that removes nothing. -/
theorem Beheaded.untouched (store : BlockStore) {start : Int64} {result : Except SyncError Unit}
    {database : Database}
    (barred : ∀ error, result = .error error → RefusesStart error → Barred start database) :
    Beheaded store start database result database :=
  ⟨0, .none database, fun _ => rfl, fun error failed refuses =>
    Or.inl (barred error failed refuses)⟩

theorem ends_setStartWithin (store : BlockStore) (limit : Nat) (start : Int64) :
    Ends fault (store.setStartWithin limit start) before (Beheaded store start before) := by
  unfold setStartWithin
  split
  next negative => exact .bind (.throw (.untouched store fun _ _ _ => Or.inl negative))
  next natural =>
    refine .bind (ends_head?_readable.weaken ?_)
    rintro result _ ⟨rfl, readable, patient⟩
    cases result with
    | error error =>
        refine .untouched store ?_
        rintro _ ⟨⟩ refuses
        exact absurd refuses (patient error rfl)
    | ok found =>
        cases found with
        | none => exact .pure (.untouched store fun _ none => nomatch none)
        | some head =>
            have isHead := readable head rfl
            dsimp only
            split
            next ahead =>
              exact .bind (.throw (.untouched store fun _ _ _ => Or.inr ⟨head, isHead, ahead⟩))
            next reached =>
              refine (ends_rewind_complete store start limit isHead).weaken ?_
              rintro result after ⟨⟨count, beheads⟩, refused⟩
              refine ⟨count, beheads, ?_, fun error failed refuses =>
                Or.inr (refused error failed refuses)⟩
              rintro (negative | ⟨id, isOther, ahead⟩)
              · exact absurd negative natural
              · cases (isHead.unique isOther).1
                exact absurd ahead reached

end BlockStore

/-- Whatever the database, the workers and the failing accesses: additions and removals that fail
change nothing, and new starts leave what complete removals of successive heads leave.  There are
none of them where the start is negative or leaves a gap above the head; another start fails with
such an error only where a worker refuses with it to let the head go that is left.  The last part
bounds the removals by any limit, for workers that make rewinding go on for longer than there are
entries. -/
theorem operations_atomic (shelf : Shelf) :
    (∀ block error, (shelf.serve (.add block)).1 = .error error →
      (shelf.serve (.add block)).2.session.database = shelf.session.database) ∧
    (∀ id error, (shelf.serve (.remove id)).1 = .error error →
      (shelf.serve (.remove id)).2.session.database = shelf.session.database) ∧
    (∀ start, BlockStore.Beheaded shelf.store start shelf.session.database
      (shelf.serve (.setStart start)).1 (shelf.serve (.setStart start)).2.session.database) ∧
    ∀ limit start, BlockStore.Beheaded shelf.store start shelf.session.database
      (shelf.run (shelf.store.setStartWithin limit start)).1
      (shelf.run (shelf.store.setStartWithin limit start)).2.session.database := by
  have within (limit : Nat) (start : Int64) : BlockStore.Beheaded shelf.store start
      shelf.session.database (shelf.run (shelf.store.setStartWithin limit start)).1
      (shelf.run (shelf.store.setStartWithin limit start)).2.session.database := by
    obtain ⟨result, after, accesses, ran, beheaded⟩ :=
      Shelf.run_of_ends (BlockStore.ends_setStartWithin shelf.store limit start)
    rw [ran]
    exact beheaded
  refine ⟨fun block error failed => ?_, fun id error failed => ?_, fun start => ?_, within⟩
  · obtain ⟨result, after, accesses, ran, outcome⟩ :=
      Shelf.run_of_ends (BlockStore.ends_add shelf.store block)
    rw [Shelf.serve, ran] at failed ⊢
    cases failed
    exact outcome
  · obtain ⟨result, after, accesses, ran, outcome⟩ :=
      Shelf.run_of_ends (BlockStore.ends_remove shelf.store id)
    rw [Shelf.serve, ran] at failed ⊢
    cases failed
    exact outcome
  · have same : shelf.serve (.setStart start) =
        shelf.run (shelf.store.setStartWithin (shelf.session.database.size + 1) start) := by
      rw [Shelf.serve, Shelf.run, Shelf.run, BlockStore.setStart_eq_setStartWithin]
    rw [same]
    exact within _ start

/-! ## Starts that fail halfway -/

/-- Rewinding removes the head, and stops at the next one if it cannot be removed. -/
theorem BlockStore.yields_setStart_halfway {between : Database} {head next : BlockId}
    {error : SyncError} {start : Int64} (stocked : 0 < before.size)
    (isHead : Yields BlockStore.head before (.ok head) before)
    (removed : Yields (store.remove head) before (.ok ()) between)
    (isNext : Yields BlockStore.head between (.ok next) between)
    (stopped : Yields (store.remove next) between (.error error) between) (natural : 0 ≤ start)
    (reached : start ≤ head.index + 1) (above : start ≤ head.index)
    (below : start ≤ next.index) : Yields (store.setStart start) before (.error error) between := by
  have rewound (fuel : Nat) :
      Yields (store.rewind start (fuel + 2) head) before (.error error) between := by
    unfold BlockStore.rewind
    rw [if_pos above]
    refine .bind removed (.bind (.tryCatch (.map some isNext)) ?_)
    unfold BlockStore.rewind
    dsimp only
    rw [if_pos below]
    exact .bind_error stopped
  obtain ⟨fuel, size⟩ := Nat.exists_eq_add_of_le' stocked
  unfold BlockStore.setStart
  rw [if_neg (Int64.not_lt.2 natural)]
  refine .bind (.tryCatch (.map some isHead)) ?_
  dsimp only
  rw [if_neg (Int64.not_lt.2 reached)]
  refine .bind_size (fun size => store.rewind start (size + 1) head) ?_
  rw [size]
  exact rewound fuel

/-- A head without a block cannot be removed. -/
theorem Dangles.yields_remove {head : BlockId} (dangles : Dangles head before)
    (store : BlockStore) :
    Yields (store.remove head) before (.error (.storage (.blockNotFound head.display))) before := by
  unfold BlockStore.remove
  refine .bind dangles.yields_head ?_
  rw [if_neg (not_not_intro rfl)]
  exact .bind_error dangles.yields_block

/-- Rewinding below a stray block removes it, and fails at the head that takes its place. -/
theorem Stored.yields_setStart_stray {block : Block} (stored : Stored [block] before)
    (tame : store.Tame) (stray : Stray block) {start : Int64} (natural : 0 ≤ start)
    (reached : start ≤ block.id.index + 1) (above : start ≤ block.id.index)
    (below : start ≤ block.parent.index) :
    ∃ after, Yields (store.setStart start) before
      (.error (.storage (.blockNotFound block.parent.display))) after := by
  obtain ⟨after, dangles, removed⟩ := stored.yields_remove_stray tame stray
  exact ⟨after, BlockStore.yields_setStart_halfway stored.length_le_size stored.yields_head removed
    dangles.yields_head (dangles.yields_remove store) natural reached above below⟩

/-- The store of the stray block refuses to add it again and to remove its parent, and a start
below it fails when the block is removed. -/
theorem operations_atomic_strayBlock :
    let shelf := (emptyShelf.serve (.add strayBlock)).2
    (shelf.serve (.add strayBlock)).1 = .error (.storage (.duplicateBlock "a:5")) ∧
      (shelf.serve (.add strayBlock)).2.session.database = shelf.session.database ∧
    (shelf.serve (.remove ⟨4, "a"⟩)).1 = .error (.storage (.notHead "a:4" "a:5")) ∧
      (shelf.serve (.remove ⟨4, "a"⟩)).2.session.database = shelf.session.database ∧
    (shelf.serve (.setStart 0)).1 = .error (.storage (.blockNotFound "a:4")) ∧
      ∃ count, Beheads shelf.store count shelf.session.database
        (shelf.serve (.setStart 0)).2.session.database := by
  have durable : Durable strayBlock := Json.decode?_encode_bareBlock _ _ _
  have keeps := emptyShelf_add durable
  intro shelf
  obtain ⟨adds, removes, starts, -⟩ := operations_atomic shelf
  have duplicate : (shelf.serve (.add strayBlock)).1 =
      .error (.storage (.duplicateBlock "a:5")) :=
    (Shelf.answer_eq (keeps.kept.yields_add_duplicate shelf.store List.mem_cons_self)
      keeps.sound).trans rfl
  have notHead : (shelf.serve (.remove ⟨4, "a"⟩)).1 =
      .error (.storage (.notHead "a:4" "a:5")) :=
    (Shelf.answer_eq (keeps.kept.yields_remove_notHead shelf.store (by decide))
      keeps.sound).trans rfl
  obtain ⟨after, yields⟩ := keeps.kept.yields_setStart_stray keeps.tame (by decide)
    (Int64.le_refl 0) (by decide) (by decide) (by decide)
  have stopped : (shelf.serve (.setStart 0)).1 = .error (.storage (.blockNotFound "a:4")) :=
    (Shelf.answer_eq yields keeps.sound).trans rfl
  obtain ⟨count, beheads, -⟩ := starts 0
  exact ⟨duplicate, adds _ _ duplicate, notHead, removes _ _ notHead, stopped,
    count, beheads⟩

/-- A worker that lets no block at the first index go, with the error of a start that leaves a
gap. -/
def Worker.anchor : Worker where
  adding _ batch := .ok batch
  removing block batch :=
    if block.id.index = 0 then .error (.storage (.startIndexAhead 0 2)) else .ok batch

/-- A start may be refused after a complete removal: the anchor lets the skipping block go, and
keeps the first one with the error of a start that leaves a gap. -/
theorem setStart_refused_anchored :
    let shelf := (skippingShelf.serve (.prepare [Worker.anchor])).2
    shelf.answer BlockStore.head = .ok ⟨2, "c"⟩ ∧
      (shelf.serve (.setStart 0)).1 = .error (.storage (.startIndexAhead 0 2)) ∧
      (shelf.serve (.setStart 0)).2.answer BlockStore.head = .ok ⟨0, "a"⟩ ∧
      (shelf.serve (.setStart 0)).2.session.database ≠ shelf.session.database := by
  intro shelf
  have stored : Stored [skippingBlock, firstBlock] shelf.session.database :=
    skippingShelf_grown.keeps.kept.toStored
  have sound : Sound shelf.session.fault := skippingShelf_grown.keeps.sound
  have left : Stored [firstBlock] (shelf.session.database.write
      (BlockStore.removals ⟨2, "c"⟩ (some ⟨0, "a"⟩))) := stored.remove .nil
  have yields : Yields (shelf.store.setStart 0) shelf.session.database
      (.error (.storage (.startIndexAhead 0 2))) (shelf.session.database.write
        (BlockStore.removals ⟨2, "c"⟩ (some ⟨0, "a"⟩))) :=
    BlockStore.yields_setStart_halfway (Nat.zero_lt_of_lt stored.length_le_size) stored.yields_head
      (stored.yields_remove_of_stage rfl) left.yields_head (left.yields_remove_refused rfl)
      Int64.le_rfl (by decide) (by decide) (by decide)
  obtain ⟨accesses, ran⟩ := Shelf.run_eq yields sound
  have served : shelf.serve (.setStart 0) = _ := ran
  rw [served]
  refine ⟨Shelf.answer_eq stored.yields_head sound, rfl,
    Shelf.answer_eq left.yields_head sound, fun same => ?_⟩
  have heads := (left.yields_head.unique (same ▸ stored.yields_head)).1
  cases heads

end ChainFollower.Store
