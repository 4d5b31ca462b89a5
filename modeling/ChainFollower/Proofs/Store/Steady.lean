import ChainFollower.Proofs.Store.Composition
import ChainFollower.Store.Counter

/-!
# Steady computations

Where no access fails, what a computation does depends on the database only, and not on the
number of accesses made before.
-/

namespace ChainFollower.Store

variable {α β : Type}

/-- From one database, a computation none of whose accesses fails always ends the same. -/
def Steady (act : Storing α) : Prop :=
  ∀ before, ∃ result after, ∀ number, ∃ count,
    act ⟨before, number, fun _ _ => none⟩ = ending result ⟨after, count, fun _ _ => none⟩

namespace Steady

theorem pure (value : α) : Steady (pure value) :=
  fun before => ⟨.ok value, before, fun number => ⟨number, rfl⟩⟩

theorem throw (error : SyncError) : Steady (throw error : Storing α) :=
  fun before => ⟨.error error, before, fun number => ⟨number, rfl⟩⟩

theorem access (request : Access) (act : Database → α × Database) :
    Steady (Session.access request act) :=
  fun before => ⟨.ok (act before).1, (act before).2, fun number => ⟨number + 1, rfl⟩⟩

theorem bind {act : Storing α} {next : α → Storing β} (first : Steady act)
    (rest : ∀ value, Steady (next value)) : Steady (act >>= next) := by
  intro before
  obtain ⟨result, between, ran⟩ := first before
  cases result with
  | error error =>
      refine ⟨.error error, between, fun number => ?_⟩
      obtain ⟨count, ended⟩ := ran number
      refine ⟨count, ?_⟩
      simp only [Bind.bind, EStateM.bind, ended, ending]
  | ok value =>
      obtain ⟨result, after, ranRest⟩ := rest value between
      refine ⟨result, after, fun number => ?_⟩
      obtain ⟨count, ended⟩ := ran number
      obtain ⟨last, endedRest⟩ := ranRest count
      refine ⟨last, ?_⟩
      rw [← endedRest]
      simp only [Bind.bind, EStateM.bind, ended, ending]

theorem tryCatch {act : Storing α} {handle : SyncError → Storing α} (first : Steady act)
    (rest : ∀ error, Steady (handle error)) : Steady (MonadExcept.tryCatch act handle) := by
  intro before
  obtain ⟨result, between, ran⟩ := first before
  cases result with
  | ok value =>
      refine ⟨.ok value, between, fun number => ?_⟩
      obtain ⟨count, ended⟩ := ran number
      refine ⟨count, ?_⟩
      change EStateM.tryCatch act handle _ = _
      delta EStateM.tryCatch
      simp only [ended, ending]
  | error error =>
      obtain ⟨result, after, ranRest⟩ := rest error between
      refine ⟨result, after, fun number => ?_⟩
      obtain ⟨count, ended⟩ := ran number
      obtain ⟨last, endedRest⟩ := ranRest count
      refine ⟨last, ?_⟩
      rw [← endedRest]
      change EStateM.tryCatch act handle _ = _
      delta EStateM.tryCatch
      simp only [ended, ending]
      rfl

end Steady

/-- Composed computations are steady. -/
theorem Composed.steady {act : Storing α} (composed : Composed (fun _ => True) act) :
    Steady act := by
  induction composed with
  | pure value => exact .pure value
  | throw raised => exact .throw _
  | get? other => exact .access _ _
  | write batch => exact .access _ _
  | bind _ _ ihFirst ihRest => exact ihFirst.bind ihRest
  | rescue _ _ _ ihFirst ihRest => exact ihFirst.tryCatch fun error => ihRest error trivial

/-! ## The block store -/

namespace BlockStore

/-- Additions are steady. -/
theorem steady_add (store : BlockStore) (block : Block) : Steady (store.add block) :=
  (composed_add (fun _ _ => trivial) block fun _ _ _ _ _ => trivial).steady

/-- Removals are steady. -/
theorem steady_remove (store : BlockStore) (id : BlockId) : Steady (store.remove id) :=
  (composed_remove (fun _ _ => trivial) id fun _ _ _ _ _ _ => trivial).steady

/-- Additions depend on the workers, not on how many blocks are handed out. -/
theorem add_congr {left right : BlockStore} (workers : left.workers = right.workers)
    (block : Block) : left.add block = right.add block := by
  unfold add
  rw [workers]

/-- So do removals. -/
theorem remove_congr {left right : BlockStore} (workers : left.workers = right.workers)
    (id : BlockId) : left.remove id = right.remove id := by
  unfold remove
  rw [workers]

end BlockStore

/-! ## Counters -/

namespace Counter

theorem steady_get (name : String) : Steady (get name) := by
  unfold get
  refine .bind (.access _ _) fun found => ?_
  cases found with
  | none => exact .pure 0
  | some bytes =>
      dsimp only
      split
      · exact .pure _
      · exact .throw _

/-- Updates of counters are steady. -/
theorem steady_update (name : String) (delta : Int64) : Steady (update name delta) := by
  unfold update
  exact .bind (steady_get name) fun value => .bind (.access _ _) fun _ => .pure _

end Counter

end ChainFollower.Store
