import ChainFollower.Proofs.Store.Entries
import Mathlib.Data.List.Nodup
import Mathlib.Data.List.Perm.Subperm

/-!
# Rewinding

A new start takes back blocks one by one, newest first.  `Unwinds` relates the
chains and databases before and after such removals; what each removal preserves,
a new start preserves.
-/

namespace ChainFollower.Store

/-- Removals lead from one chain and its database to another. -/
inductive Unwinds : List Block → Database → List Block → Database → Prop
  | refl (blocks : List Block) (database : Database) : Unwinds blocks database blocks database
  | step {newest : Block} {older left : List Block} {database after : Database} {extra : Batch}
      (aside : Aside extra)
      (rest : Unwinds older (database.write
        (BlockStore.removals newest.id (older.head?.map Block.id) ++ extra)) left after) :
      Unwinds (newest :: older) database left after

variable {newest : Block} {blocks older left : List Block} {database after : Database}

/-- A property of a chain and its database that makes the chain a settled one and
that removals preserve. -/
structure Lasting (Kept : List Block → Database → Prop) : Prop where
  stored : ∀ {blocks database}, Kept blocks database → Stored blocks database
  settled : ∀ {blocks database}, Kept blocks database → ∀ block ∈ blocks, ¬Stray block
  remove : ∀ {newest older database extra}, Kept (newest :: older) database → Aside extra →
    Kept older (database.write
      (BlockStore.removals newest.id (older.head?.map Block.id) ++ extra))

theorem Lasting.unwinds {Kept : List Block → Database → Prop} (lasting : Lasting Kept)
    (unwinds : Unwinds blocks database left after) (kept : Kept blocks database) :
    Kept left after := by
  induction unwinds with
  | refl => exact kept
  | step aside _ ih => exact ih (lasting.remove kept aside)

/-- To hold a chain lasts. -/
theorem lasting_holds : Lasting Holds where
  stored holds := holds.toStored
  settled holds := holds.settled
  remove holds aside := holds.remove aside

/-! ## How long it takes -/

/-- A chain has no more blocks than its database has entries. -/
theorem Stored.length_le_size (stored : Stored blocks database) :
    blocks.length ≤ database.size := by
  have distinct : (blocks.map fun block => (Key.block block.id.hash).bytes).Nodup := by
    have keys : ((blocks.map (·.id.hash)).map fun hash => (Key.block hash).bytes).Nodup :=
      List.Nodup.map (fun _ _ equal => Key.block_bytes_inj.1 equal) stored.distinct
    rwa [List.map_map] at keys
  have among : (blocks.map fun block => (Key.block block.id.hash).bytes) ⊆
      database.entries.entries.map Prod.fst := by
    intro key member
    obtain ⟨block, memberBlock, rfl⟩ := List.mem_map.1 member
    have found := stored.block block.id.hash
    rw [stored.withHash?_of_mem memberBlock] at found
    exact List.mem_map.2 ⟨_, (database.entries.mem_entries_iff _ _).2 found, rfl⟩
  have shorter := (List.subperm_of_subset distinct among).length_le
  rwa [List.length_map, List.length_map] at shorter

/-! ## New starts -/

/-- What is left after rewinding is below the start. -/
theorem lt_of_mem_head?_dropWhile {start : Int64}
    (member : newest ∈ (blocks.dropWhile fun block => start ≤ block.id.index).head?) :
    newest.id.index < start := by
  have notAbove := List.head?_dropWhile_not (fun block : Block => start ≤ block.id.index) blocks
  rw [Option.mem_def.1 member] at notAbove
  simpa using notAbove

variable {store : BlockStore} {start : Int64}

/-- A store removes the newest block and keeps a property of the chain and its database. -/
structure Removing (store : BlockStore) (Kept : List Block → Database → Prop) : Prop where
  stored : ∀ {blocks database}, Kept blocks database → Stored blocks database
  removes : ∀ {newest older database}, Kept (newest :: older) database →
    ∃ after, Kept older after ∧ Yields (store.remove newest.id) database (.ok ()) after

/-- Rewinding removes the blocks from the head down to the first one below the start, and what
one removal keeps, it keeps. -/
theorem Removing.yields_rewind {Kept : List Block → Database → Prop} (removing : Removing store Kept)
    (kept : Kept (newest :: older) database) (start : Int64) {fuel : Nat}
    (enough : (newest :: older).length ≤ fuel) :
    ∃ after, Kept ((newest :: older).dropWhile fun block => start ≤ block.id.index) after ∧
      Yields (store.rewind start fuel newest.id) database (.ok ()) after := by
  induction fuel generalizing newest older database with
  | zero => exact absurd enough (Nat.not_succ_le_zero _)
  | succ fuel ih =>
      unfold BlockStore.rewind
      rw [List.dropWhile_cons]
      by_cases above : start ≤ newest.id.index
      · obtain ⟨between, keptLeft, removed⟩ := removing.removes kept
        have storedLeft := removing.stored keptLeft
        rw [if_pos above, if_pos (decide_eq_true above)]
        cases older with
        | nil =>
            refine ⟨between, keptLeft, .bind removed (.bind storedLeft.yields_head? ?_)⟩
            exact .pure () _
        | cons lower older =>
            obtain ⟨after, keptAfter, rewound⟩ := ih keptLeft (Nat.le_of_succ_le_succ enough)
            exact ⟨after, keptAfter, .bind removed (.bind storedLeft.yields_head? rewound)⟩
      · rw [if_neg above, if_neg fun true => above (of_decide_eq_true true)]
        exact ⟨database, kept, .pure () database⟩

/-- So does a new start that leaves no gap after the head. -/
theorem Removing.yields_setStart {Kept : List Block → Database → Prop}
    (removing : Removing store Kept) (kept : Kept (newest :: older) database)
    (natural : 0 ≤ start) (reached : start ≤ newest.id.index + 1) :
    ∃ after, Kept ((newest :: older).dropWhile fun block => start ≤ block.id.index) after ∧
      Yields (store.setStart start) database (.ok ()) after := by
  have stored := removing.stored kept
  obtain ⟨after, keptAfter, rewound⟩ :=
    removing.yields_rewind kept start (Nat.le_succ_of_le stored.length_le_size)
  refine ⟨after, keptAfter, ?_⟩
  unfold BlockStore.setStart
  rw [if_neg (Int64.not_lt.2 natural)]
  refine .bind stored.yields_head? ?_
  dsimp only [List.head?_cons, Option.map_some]
  rw [if_neg (Int64.not_lt.2 reached)]
  exact .bind_size (fun size => store.rewind start (size + 1) newest.id) rewound

theorem Unwinds.snoc {extra : Batch} (unwinds : Unwinds blocks database (newest :: older) after)
    (aside : Aside extra) : Unwinds blocks database older (after.write
      (BlockStore.removals newest.id (older.head?.map Block.id) ++ extra)) := by
  generalize same : newest :: older = left at unwinds
  induction unwinds with
  | refl blocks database =>
      subst same
      exact .step aside (.refl _ _)
  | step asideFirst _ ih => exact .step asideFirst (ih same)

/-- With tame workers, a store of settled blocks unwinds. -/
theorem removing_unwinds (tame : store.Tame) (blocks : List Block) (database : Database) :
    Removing store fun left after => Stored left after ∧ (∀ block ∈ left, ¬Stray block) ∧
      Unwinds blocks database left after where
  stored kept := kept.1
  removes := by
    rintro newest older between ⟨stored, settled, unwinds⟩
    obtain ⟨extra, aside, removed⟩ := stored.yields_remove tame
    rw [stored.nextHead_eq (settled newest List.mem_cons_self)] at removed
    exact ⟨_, ⟨stored.remove aside,
      fun block member => settled block (List.mem_cons_of_mem _ member), unwinds.snoc aside⟩, removed⟩

namespace Stored

theorem yields_setStart_negative (store : BlockStore) (database : Database)
    (negative : start < 0) :
    Yields (store.setStart start) database (.error (.storage (.negativeStartIndex start)))
      database := by
  unfold BlockStore.setStart
  rw [if_pos negative]
  exact .bind_error (.throw _ database)

theorem yields_setStart_nil (stored : Stored [] database) (store : BlockStore)
    (natural : 0 ≤ start) : Yields (store.setStart start) database (.ok ()) database := by
  unfold BlockStore.setStart
  rw [if_neg (Int64.not_lt.2 natural)]
  refine .bind stored.yields_head? ?_
  exact .pure () database

/-- A start that would leave a gap after the head is refused. -/
theorem yields_setStart_ahead (stored : Stored (newest :: older) database) (store : BlockStore)
    (natural : 0 ≤ start) (ahead : newest.id.index + 1 < start) :
    Yields (store.setStart start) database
      (.error (.storage (.startIndexAhead newest.id.index start))) database := by
  unfold BlockStore.setStart
  rw [if_neg (Int64.not_lt.2 natural)]
  refine .bind stored.yields_head? ?_
  dsimp only [List.head?_cons, Option.map_some]
  rw [if_pos ahead]
  exact .bind_error (.throw _ database)

/-- Any other start removes the blocks from the head down to the first one below
it. -/
theorem yields_setStart (stored : Stored (newest :: older) database)
    (settled : ∀ block ∈ newest :: older, ¬Stray block) (tame : store.Tame)
    (natural : 0 ≤ start) (reached : start ≤ newest.id.index + 1) :
    ∃ after, Unwinds (newest :: older) database
        ((newest :: older).dropWhile fun block => start ≤ block.id.index) after ∧
      Yields (store.setStart start) database (.ok ()) after := by
  obtain ⟨after, ⟨-, -, unwinds⟩, yields⟩ :=
    (removing_unwinds tame (newest :: older) database).yields_setStart
      ⟨stored, settled, .refl _ _⟩ natural reached
  exact ⟨after, unwinds, yields⟩

end Stored

end ChainFollower.Store
