import ChainFollower.Proofs.Store.Batches
import ChainFollower.Proofs.Store.Keys
import ChainFollower.Store.Session

/-!
# What computations on a database yield

`Yields act before result after` says that a computation turns one database into
another and ends with a result, however many accesses were made earlier and
whichever accesses of counters fail.  The lemmas follow the ways in which
computations are put together.
-/

namespace ChainFollower.Store

variable {α β : Type} {before between after : Database}

/-- Whether an access reads or writes a counter. -/
def Access.OfCounter : Access → Prop
  | .get key => ∃ name, key = (Key.counter name).bytes
  | .insert key _ => ∃ name, key = (Key.counter name).bytes
  | .erase _ => False
  | .write _ => False
  | .scan _ => False

/-- Only accesses of counters fail. -/
def Sound (fault : Nat → Access → Option String) : Prop :=
  ∀ number request, ¬request.OfCounter → fault number request = none

theorem sound_reliable (database : Database) : Sound (Session.reliable database).fault :=
  fun _ _ _ => rfl

/-- How a computation ends. -/
def ending : Except SyncError α → Session → EStateM.Result SyncError Session α
  | .ok value, session => .ok value session
  | .error error, session => .error error session

/-- From one database, a computation ends with a result and leaves another. -/
def Yields (act : Storing α) (before : Database) (result : Except SyncError α)
    (after : Database) : Prop :=
  ∀ fault number, Sound fault →
    ∃ count, act ⟨before, number, fault⟩ = ending result ⟨after, count, fault⟩

/-- What a computation yields on the database of a session, it yields in the
session. -/
theorem Yields.run {act : Storing α} {result : Except SyncError α} {session : Session}
    (yields : Yields act session.database result after) (sound : Sound session.fault) :
    ∃ count, act session = ending result ⟨after, count, session.fault⟩ :=
  yields session.fault session.accesses sound

/-- A computation yields one result. -/
theorem Yields.unique {act : Storing α} {result other : Except SyncError α}
    (first : Yields act before result after) (second : Yields act before other between) :
    result = other ∧ after = between := by
  obtain ⟨count, ran⟩ := first _ 0 (sound_reliable before)
  obtain ⟨last, ranOther⟩ := second _ 0 (sound_reliable before)
  rw [ran] at ranOther
  cases result <;> cases other <;> cases ranOther <;> exact ⟨rfl, rfl⟩

/-! ## Putting computations together -/

theorem Yields.pure (value : α) (database : Database) :
    Yields (pure value) database (.ok value) database :=
  fun _ number _ => ⟨number, rfl⟩

theorem Yields.throw (error : SyncError) (database : Database) :
    Yields (throw error : Storing α) database (.error error) database :=
  fun _ number _ => ⟨number, rfl⟩

theorem Yields.bind {act : Storing α} {next : α → Storing β} {value : α}
    {result : Except SyncError β} (first : Yields act before (.ok value) between)
    (rest : Yields (next value) between result after) :
    Yields (act >>= next) before result after := by
  intro fault number sound
  obtain ⟨count, ran⟩ := first fault number sound
  obtain ⟨last, ranRest⟩ := rest fault count sound
  refine ⟨last, ?_⟩
  rw [← ranRest]
  simp only [Bind.bind, EStateM.bind, ran, ending]

theorem Yields.bind_error {act : Storing α} {next : α → Storing β} {error : SyncError}
    (first : Yields act before (.error error) after) :
    Yields (act >>= next) before (.error error) after := by
  intro fault number sound
  obtain ⟨count, ran⟩ := first fault number sound
  refine ⟨count, ?_⟩
  simp only [Bind.bind, EStateM.bind, ran, ending]

theorem Yields.map {act : Storing α} {value : α} (change : α → β)
    (yields : Yields act before (.ok value) after) :
    Yields (change <$> act) before (.ok (change value)) after := by
  intro fault number sound
  obtain ⟨count, ran⟩ := yields fault number sound
  refine ⟨count, ?_⟩
  simp only [Functor.map, EStateM.map, ran, ending]

theorem Yields.map_error {act : Storing α} {error : SyncError} (change : α → β)
    (yields : Yields act before (.error error) after) :
    Yields (change <$> act) before (.error error) after := by
  intro fault number sound
  obtain ⟨count, ran⟩ := yields fault number sound
  refine ⟨count, ?_⟩
  simp only [Functor.map, EStateM.map, ran, ending]

theorem Yields.tryCatch {act : Storing α} {handle : SyncError → Storing α} {value : α}
    (yields : Yields act before (.ok value) after) :
    Yields (tryCatch act handle) before (.ok value) after := by
  intro fault number sound
  obtain ⟨count, ran⟩ := yields fault number sound
  refine ⟨count, ?_⟩
  change EStateM.tryCatch act handle _ = _
  delta EStateM.tryCatch
  simp only [ran, ending]

/-- A handled failure does not undo what was done before it. -/
theorem Yields.tryCatch_error {act : Storing α} {handle : SyncError → Storing α}
    {error : SyncError} {result : Except SyncError α}
    (first : Yields act before (.error error) between)
    (rest : Yields (handle error) between result after) :
    Yields (MonadExcept.tryCatch act handle) before result after := by
  intro fault number sound
  obtain ⟨count, ran⟩ := first fault number sound
  obtain ⟨last, ranRest⟩ := rest fault count sound
  refine ⟨last, ?_⟩
  rw [← ranRest]
  change EStateM.tryCatch act handle _ = _
  delta EStateM.tryCatch
  simp only [ran, ending]
  rfl

/-- The number of entries may be looked at. -/
theorem Yields.bind_size (next : Nat → Storing β) {result : Except SyncError β}
    (rest : Yields (next before.size) before result after) :
    Yields (do let session ← get; next session.database.size) before result after :=
  fun fault number sound => rest fault number sound

/-! ## Accesses -/

theorem Yields.access {request : Access} (allowed : ¬request.OfCounter)
    (act : Database → α × Database) (database : Database) :
    Yields (Session.access request act) database (.ok (act database).1) (act database).2 := by
  intro fault number sound
  refine ⟨number + 1, ?_⟩
  simp only [Session.access, sound number request allowed, ending]

/-- Entries of chains can be read. -/
theorem Yields.get? {key : Bytes} (ofChain : Key.OfChain key) (database : Database) :
    Yields (Session.get? key) database (.ok (database.get? key)) database := by
  refine Yields.access ?_ _ database
  rintro ⟨name, rfl⟩
  exact Key.not_ofChain_counter name ofChain

theorem Yields.write (batch : Batch) (database : Database) :
    Yields (Session.write batch) database (.ok ()) (database.write batch) :=
  Yields.access id _ database

theorem Yields.decodeStored [Json.Form α] {bytes : Bytes} {value : α}
    (decodes : Json.decode? bytes = some value) (database : Database) :
    Yields (Store.decodeStored bytes) database (.ok value) database := by
  rw [Store.decodeStored, decodes]
  exact .pure value database

end ChainFollower.Store
