import ChainFollower.Proofs.Store.Lookups

/-!
# The two backends

One backend applies the changes of a batch in order and scans a range of keys; the other applies
the last change of each key, in whatever order, and selects keys by their leading bytes.  No
sequence of accesses tells them apart.
-/

namespace ChainFollower.Store

/-! ## The last change of a key -/

namespace Batch

/-- The last change of a key. -/
def last? (key : Bytes) (batch : Batch) : Option Change :=
  batch.reverse.find? fun change => change.key == key

theorem last?_append_singleton (key : Bytes) (batch : Batch) (change : Change) :
    last? key (batch ++ [change]) = if change.key = key then some change else last? key batch := by
  rw [last?, List.reverse_append, List.reverse_singleton, List.singleton_append, List.find?_cons]
  by_cases same : change.key = key
  · rw [if_pos same, beq_iff_eq.2 same]
  · rw [if_neg same, beq_eq_false_iff_ne.2 same]
    rfl

/-- A key has the effect of its last change, or keeps what was there. -/
theorem outcome_eq_last? (key : Bytes) (before : Option Bytes) (batch : Batch) :
    outcome key before batch = ((last? key batch).map Change.value?).getD before := by
  induction batch using List.reverseRecOn with
  | nil => rfl
  | append_singleton batch change ih =>
      rw [outcome_append, outcome_cons, outcome_nil, last?_append_singleton]
      by_cases same : change.key = key
      · rw [if_pos same, if_pos same]
        rfl
      · rw [if_neg same, if_neg same, ih]

theorem mem_of_mem_latest {batch : Batch} {change : Change} (member : change ∈ batch.latest) :
    change ∈ batch := by
  induction batch with
  | nil => exact member
  | cons first rest ih =>
      rw [latest] at member
      split at member
      next => exact List.mem_cons_of_mem _ (ih member)
      next =>
        rcases List.mem_cons.1 member with rfl | member
        · exact List.mem_cons_self
        · exact List.mem_cons_of_mem _ (ih member)

/-- No key has two last changes. -/
theorem nodup_latest (batch : Batch) : (batch.latest.map Change.key).Nodup := by
  induction batch with
  | nil => exact .nil
  | cons change rest ih =>
      rw [latest]
      split
      next => exact ih
      next single =>
        refine List.nodup_cons.2 ⟨fun member => single ?_, ih⟩
        obtain ⟨later, isLatest, same⟩ := List.mem_map.1 member
        exact List.any_eq_true.2 ⟨later, mem_of_mem_latest isLatest, beq_iff_eq.2 same⟩

/-- Changes of distinct keys may be applied in any order. -/
theorem outcome_perm {first second : Batch} (distinct : (first.map Change.key).Nodup)
    (same : first.Perm second) (key : Bytes) (before : Option Bytes) :
    outcome key before first = outcome key before second := by
  refine same.foldl_eq' ?_ before
  intro left leftMember right rightMember value
  by_cases keys : left.key = right.key
  · rw [List.inj_on_of_nodup_map distinct leftMember rightMember keys]
  · by_cases ofLeft : left.key = key
    · have notRight : right.key ≠ key := fun ofRight => keys (ofLeft.trans ofRight.symm)
      simp only [ofLeft, notRight, if_true, if_false]
    · simp only [ofLeft, if_false]

end Batch

/-- However the last changes of the keys are ordered, they have the effect of the whole batch. -/
theorem Database.foldl_latest (database : Database) (batch : Batch) {changes : Batch}
    (same : changes.Perm batch.latest) :
    changes.foldl Change.apply database.entries = (database.write batch).entries := by
  have distinct : (changes.map Change.key).Nodup :=
    (same.map Change.key).nodup_iff.2 batch.nodup_latest
  ext1 key
  rw [Change.get?_foldl_apply, Batch.outcome_perm distinct same, Batch.outcome_latest]
  exact (database.get?_write batch key).symm

/-! ## Answers -/

/-- What an access answers. -/
inductive Answer where
  | value (found : Option Bytes)
  | done
  | entries (found : List Entry)

namespace Database

/-- The answer to an access, and the database after it. -/
def serve (database : Database) : Access → Answer × Database
  | .get key => (.value (database.get? key), database)
  | .insert key value => (.done, database.insert key value)
  | .erase key => (.done, database.erase key)
  | .write batch => (.done, database.write batch)
  | .scan start => (.entries (database.scan start), database)

/-- The database after accesses. -/
def after (database : Database) (requests : List Access) : Database :=
  requests.foldl (fun database request => (database.serve request).2) database

/-- The answers to accesses, in order. -/
def answers (database : Database) : List Access → List Answer
  | [] => []
  | request :: rest => (database.serve request).1 :: (database.serve request).2.answers rest

end Database

/-- An access through a session. -/
def Access.make : Access → Storing Answer
  | .get key => Answer.value <$> Session.get? key
  | .insert key value => (fun _ => Answer.done) <$> Session.insert key value
  | .erase key => (fun _ => Answer.done) <$> Session.erase key
  | .write batch => (fun _ => Answer.done) <$> Session.write batch
  | .scan start => Answer.entries <$> Session.scan start

/-- An access that does not fail is answered by the database. -/
theorem Access.make_eq (request : Access) (session : Session)
    (granted : session.fault session.accesses request = none) :
    request.make session = .ok (session.database.serve request).1
      ⟨(session.database.serve request).2, session.accesses + 1, session.fault⟩ := by
  cases request <;>
    simp only [make, Functor.map, EStateM.map, Session.get?, Session.insert, Session.erase,
      Session.write, Session.scan, Session.access, granted, Database.serve]

/-- Accesses none of which fails are answered by the database, one after another. -/
theorem Access.mapM_make (requests : List Access) (database : Database) (number : Nat) :
    requests.mapM Access.make ⟨database, number, fun _ _ => none⟩ =
      .ok (database.answers requests)
        ⟨database.after requests, number + requests.length, fun _ _ => none⟩ := by
  induction requests generalizing database number with
  | nil => rfl
  | cons request rest ih =>
      have first := request.make_eq ⟨database, number, fun _ _ => none⟩ rfl
      have later := ih (database.serve request).2 (number + 1)
      rw [List.mapM_cons]
      simp only [Bind.bind, EStateM.bind, first, later]
      rw [List.length_cons, Nat.add_right_comm]
      rfl

/-! ## Agreement -/

/-- The changes that an access asks for. -/
def Access.changes : Access → Batch
  | .get _ => []
  | .insert key value => [.put key value]
  | .erase key => [.delete key]
  | .write batch => batch
  | .scan _ => []

namespace Database

variable {left right : Database}

/-- An access changes each key as the last of its changes does. -/
theorem get?_serve (database : Database) (request : Access) (key : Bytes) :
    (database.serve request).2.get? key = request.changes.outcome key (database.get? key) := by
  cases request with
  | get _ => rfl
  | insert other value =>
      exact Change.get?_apply (.put other value) database.entries key
  | erase other => exact Change.get?_apply (.delete other) database.entries key
  | write batch => exact database.get?_write batch key
  | scan _ => rfl

/-- Accesses change each key as the last of all their changes does. -/
theorem get?_after (database : Database) (requests : List Access) (key : Bytes) :
    (database.after requests).get? key =
      Batch.outcome key (database.get? key) (requests.flatMap Access.changes) := by
  induction requests generalizing database with
  | nil => rfl
  | cons request rest ih =>
      rw [List.flatMap_cons, Batch.outcome_append, ← get?_serve]
      exact ih _

/-- Databases with the same entries answer an access alike, whatever keeps the entries. -/
theorem answer_serve_congr (same : left.entries = right.entries) (request : Access) :
    (left.serve request).1 = (right.serve request).1 := by
  cases request with
  | get key => rw [serve, serve, get?, get?, same]
  | scan start => rw [serve, serve, scan_eq, scan_eq, same]
  | insert key value | erase key | write batch => rfl

/-- Databases with the same entries have the same entries after an access. -/
theorem entries_serve_congr (same : left.entries = right.entries) (request : Access) :
    (left.serve request).2.entries = (right.serve request).2.entries := by
  ext1 key
  have views : left.get? key = right.get? key := congrArg (ByteMap.get? · key) same
  have leftServed := left.get?_serve request key
  have rightServed := right.get?_serve request key
  rw [views] at leftServed
  exact leftServed.trans rightServed.symm

/-- Databases with the same entries answer accesses alike, and end with the same entries. -/
theorem answers_congr (same : left.entries = right.entries) (requests : List Access) :
    left.answers requests = right.answers requests ∧
      (left.after requests).entries = (right.after requests).entries := by
  induction requests generalizing left right with
  | nil => exact ⟨rfl, same⟩
  | cons request rest ih =>
      obtain ⟨answers, entries⟩ := ih (entries_serve_congr same request)
      refine ⟨?_, entries⟩
      rw [Database.answers, Database.answers, answer_serve_congr same, answers]

theorem backend_after (database : Database) (requests : List Access) :
    (database.after requests).backend = database.backend := by
  induction requests generalizing database with
  | nil => rfl
  | cons request rest ih =>
      refine (ih _).trans ?_
      cases request <;> rfl

/-- What a scan finds is in strictly ascending order. -/
theorem ascending_scan (database : Database) (start : Bytes) :
    Ascending (database.scan start) := by
  rw [scan_eq]
  exact database.entries.ascending.filter _

end Database

/-- The two backends agree: any accesses are answered alike and leave the same entries.  A key
has the effect of its last change, of a batch or of all accesses, or else keeps what it had; the
last changes of a batch may be applied in any order; and a scan finds the entries whose keys
start with the given bytes, once each and in ascending order. -/
theorem backends_agree (entries : ByteMap) (requests : List Access) :
    (∃ answers left, ∀ backend,
      requests.mapM Access.make (.reliable ⟨backend, entries⟩) =
        .ok answers ⟨⟨backend, left⟩, requests.length, fun _ _ => none⟩ ∧
      ∀ key, left.get? key =
        ((Batch.last? key (requests.flatMap Access.changes)).map Change.value?).getD
          (entries.get? key)) ∧
    ∀ database : Database,
      (∀ batch key, (database.write batch).get? key =
        ((Batch.last? key batch).map Change.value?).getD (database.get? key)) ∧
      (∀ batch changes, List.Perm changes (Batch.latest batch) →
        changes.foldl Change.apply database.entries = (database.write batch).entries) ∧
      ∀ start, Ascending (database.scan start) ∧ ∀ key value,
        (key, value) ∈ database.scan start ↔ database.get? key = some value ∧ start <+: key := by
  constructor
  · let volatile : Database := ⟨.volatile, entries⟩
    refine ⟨volatile.answers requests, (volatile.after requests).entries,
      fun backend => ⟨?_, fun key => ?_⟩⟩
    · let database : Database := ⟨backend, entries⟩
      have same : database.entries = volatile.entries := rfl
      obtain ⟨answers, left⟩ := Database.answers_congr same requests
      have reached : database.after requests = ⟨backend, (volatile.after requests).entries⟩ := by
        rw [← left]
        exact congrArg (fun kept => (⟨kept, _⟩ : Database)) (database.backend_after requests)
      rw [← answers, ← reached, Session.reliable, Access.mapM_make, Nat.zero_add]
    · rw [← Batch.outcome_eq_last?]
      exact volatile.get?_after requests key
  · intro database
    refine ⟨fun batch key => ?_, fun batch changes same => database.foldl_latest batch same,
      fun start => ⟨database.ascending_scan start, fun key value => ?_⟩⟩
    · rw [database.get?_write, Batch.outcome_eq_last?]
    · rw [Database.mem_scan, Bytes.startsWith, List.isPrefixOf_iff_prefix]

end ChainFollower.Store
