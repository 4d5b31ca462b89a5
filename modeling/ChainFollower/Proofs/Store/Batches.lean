import ChainFollower.Store.Database

/-!
# The effect of a batch

After a batch, each key has what its last change in the batch gives it, and keys
that the batch does not name keep what they had.  This holds of both backends.
-/

namespace ChainFollower.Store

/-- What is under a key after the changes of a batch. -/
def Batch.outcome (key : Bytes) (before : Option Bytes) (batch : Batch) : Option Bytes :=
  batch.foldl (fun value change => if change.key = key then change.value? else value) before

namespace Batch

@[simp] theorem outcome_nil (key : Bytes) (before : Option Bytes) :
    outcome key before [] = before := rfl

@[simp] theorem outcome_cons (key : Bytes) (before : Option Bytes) (change : Change)
    (rest : Batch) :
    outcome key before (change :: rest) =
      outcome key (if change.key = key then change.value? else before) rest := rfl

theorem outcome_append (key : Bytes) (before : Option Bytes) (first second : Batch) :
    outcome key before (first ++ second) = outcome key (outcome key before first) second :=
  List.foldl_append

/-- A batch leaves the keys that it does not name. -/
theorem outcome_of_forall_ne {key : Bytes} {batch : Batch}
    (unnamed : ∀ change ∈ batch, change.key ≠ key) (before : Option Bytes) :
    outcome key before batch = before := by
  induction batch with
  | nil => rfl
  | cons change rest ih =>
      rw [outcome_cons, if_neg (unnamed change List.mem_cons_self)]
      exact ih fun later member => unnamed later (List.mem_cons_of_mem _ member)

/-- What was under a key before does not matter if the batch names the key. -/
theorem outcome_eq_of_mem {key : Bytes} {batch : Batch}
    (named : ∃ change ∈ batch, change.key = key) (left right : Option Bytes) :
    outcome key left batch = outcome key right batch := by
  induction batch generalizing left right with
  | nil => simp at named
  | cons change rest ih =>
      rw [outcome_cons, outcome_cons]
      by_cases same : change.key = key
      · rw [if_pos same, if_pos same]
      · rw [if_neg same, if_neg same]
        obtain ⟨later, member, sameLater⟩ := named
        rcases List.mem_cons.1 member with rfl | member
        · exact absurd sameLater same
        · exact ih ⟨later, member, sameLater⟩ left right

/-- The last changes of the keys have the effect of all changes. -/
theorem outcome_latest (key : Bytes) (batch : Batch) (before : Option Bytes) :
    outcome key before batch.latest = outcome key before batch := by
  induction batch generalizing before with
  | nil => rfl
  | cons change rest ih =>
      rw [latest]
      split
      next overwritten =>
        rw [ih, outcome_cons]
        by_cases same : change.key = key
        · simp only [List.any_eq_true, beq_iff_eq] at overwritten
          obtain ⟨later, member, sameKey⟩ := overwritten
          exact outcome_eq_of_mem ⟨later, member, sameKey.trans same⟩ _ _
        · rw [if_neg same]
      next => rw [outcome_cons, outcome_cons, ih]

end Batch

theorem Change.get?_apply (change : Change) (map : ByteMap) (key : Bytes) :
    (change.apply map).get? key = if change.key = key then change.value? else map.get? key := by
  cases change with
  | put other value => simp [Change.apply, Change.key, Change.value?, eq_comm]
  | delete other => simp [Change.apply, Change.key, Change.value?, eq_comm]

/-- After changes in order, each key has the effect of its last change. -/
theorem Change.get?_foldl_apply (changes : Batch) (map : ByteMap) (key : Bytes) :
    (changes.foldl Change.apply map).get? key = Batch.outcome key (map.get? key) changes := by
  induction changes generalizing map with
  | nil => rfl
  | cons change rest ih => rw [List.foldl_cons, ih, Change.get?_apply, Batch.outcome_cons]

namespace Database

@[simp] theorem get?_insert (database : Database) (key value other : Bytes) :
    (database.insert key value).get? other =
      if other = key then some value else database.get? other :=
  ByteMap.get?_insert database.entries key value other

/-- After a batch, each key has the effect of its last change. -/
theorem get?_write (database : Database) (batch : Batch) (key : Bytes) :
    (database.write batch).get? key = batch.outcome key (database.get? key) := by
  unfold write get?
  cases database.backend with
  | volatile => exact Change.get?_foldl_apply batch database.entries key
  | durable =>
      exact (Change.get?_foldl_apply batch.latest database.entries key).trans
        (Batch.outcome_latest key batch _)

end Database

end ChainFollower.Store
