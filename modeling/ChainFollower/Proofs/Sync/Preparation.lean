import ChainFollower.Proofs.Store.Recent
import ChainFollower.Proofs.Sync.Recording

/-!
# Where a run starts

A run starts after the head of the chain that is held, or at the start it is given,
above which nothing is left.  Its window is the upper end of the chain.  A run that
finds blocks, but no room for those to start from, panics instead.
-/

namespace ChainFollower.Sync

open Store (BlockStore Holds Storing Worker Yields newestOf)

/-- A world in which a chain is held, whatever the workers are. -/
structure Scene.HoldsAt {σ : Type} (scene : Scene σ) (blocks : List Block) (world : σ) : Prop where
  sound : Store.Sound (scene.shelf world).session.fault
  holds : Holds blocks (scene.shelf world).session.database
  /-- Indices are natural numbers with a successor. -/
  proper : ∀ block ∈ blocks, 0 ≤ block.id.index.toInt ∧ block.id.index.toInt < 9223372036854775807

/-- The index after the newest block, or -1 when there is none. -/
def resumeIndex (blocks : List Block) : Int64 :=
  match blocks with
  | [] => -1
  | newest :: _ => newest.id.index + 1

/-- A run starts at an index above a chain, or without one on an empty store. -/
def StartsAbove (start : Int64) (blocks : List Block) : Prop :=
  start = -1 ∧ blocks = [] ∨ 0 ≤ start ∧ ∀ newest ∈ blocks.head?, newest.id.index < start

theorem startsAbove_resumeIndex {blocks : List Block}
    (proper : ∀ block ∈ blocks,
      0 ≤ block.id.index.toInt ∧ block.id.index.toInt < 9223372036854775807) :
    StartsAbove (resumeIndex blocks) blocks := by
  cases blocks with
  | nil => exact Or.inl ⟨rfl, rfl⟩
  | cons newest older =>
      have bounds := proper newest List.mem_cons_self
      have next : (newest.id.index + 1).toInt = newest.id.index.toInt + 1 :=
        Words.toInt_succ bounds.2
      refine Or.inr ⟨?_, ?_⟩
      · rw [Int64.le_iff_toInt_le, resumeIndex, next, Int64.toInt_zero]
        omega
      · rintro _ ⟨⟩
        rw [Int64.lt_iff_toInt_lt, resumeIndex, next]
        omega

/-- The engine of a run, from the chain it starts with. -/
def startEngine (follower : Follower) (cacheSize : UInt64) (blocks : List Block) : Engine :=
  follower.engine (newestOf cacheSize.toNat blocks).reverse

namespace Scene

variable {σ α : Type} {scene : Scene σ} {world : σ} {blocks : List Block} {follower : Follower}

theorem shelf_prepare (workers : List Worker) :
    scene.shelf (scene.ledger.prepare workers world) =
      ⟨{ (scene.shelf world).store with workers }, (scene.shelf world).session⟩ := by
  change Store.Shelf.mk (scene.books (scene.withBooks world _)).store
    (scene.books (scene.withBooks world _)).session = _
  rw [scene.books_withBooks]
  rfl

/-- Once the workers are set, the chain is kept. -/
theorem HoldsAt.prepared (holdsAt : scene.HoldsAt blocks world)
    (tame : ∀ worker ∈ follower.workers, worker.Tame) :
    (scene.shelf (scene.ledger.prepare follower.workers world)).Keeps Holds blocks := by
  rw [shelf_prepare]
  exact ⟨tame, holdsAt.sound, holdsAt.holds⟩

/-- A computation that yields a result gives it through the ledger. -/
theorem storing_shelf {result : Except SyncError α} {database : Store.Database}
    (sound : Store.Sound (scene.shelf world).session.fault) (act : BlockStore → Storing α)
    (yields : Yields (act (scene.shelf world).store) (scene.shelf world).session.database
      result database) :
    ∃ after accesses,
      Ledger.onPart scene.books scene.withBooks (Books.storing act) world = (result, after) ∧
      scene.shelf after = ⟨(scene.shelf world).store, database, accesses,
        (scene.shelf world).session.fault⟩ := by
  obtain ⟨accesses, ran⟩ := Store.Shelf.run_eq yields sound
  obtain ⟨given, after⟩ := scene.shelf_storing world act
  rw [ran] at given after
  exact ⟨_, accesses, Prod.ext given rfl, after⟩

theorem storing_eq {left : List Block} {result : Except SyncError α} {database : Store.Database}
    (keeps : (scene.shelf world).Keeps Holds blocks) (act : BlockStore → Storing α)
    (yields : Yields (act (scene.shelf world).store) (scene.shelf world).session.database
      result database) (holds : Holds left database) :
    ∃ after,
      Ledger.onPart scene.books scene.withBooks (Books.storing act) world = (result, after) ∧
      (scene.shelf after).Keeps Holds left ∧
      (scene.shelf after).store = (scene.shelf world).store := by
  obtain ⟨after, accesses, given, shelf⟩ := storing_shelf keeps.sound act yields
  refine ⟨after, given, ?_⟩
  rw [shelf]
  exact ⟨⟨keeps.tame, keeps.sound, holds⟩, rfl⟩

/-- The newest blocks of the chain are handed out where there is room for them. -/
theorem recent_eq (holdsAt : scene.HoldsAt blocks world)
    (room : blocks ≠ [] → (scene.shelf world).store.HasRoom) :
    ∃ after accesses, scene.ledger.recent world =
        (.ok (newestOf (scene.shelf world).store.cacheSize.toNat blocks).reverse, after) ∧
      scene.shelf after = (scene.shelf world).counted accesses := by
  have yields := holdsAt.holds.lists.yields_recent room
    (fun block member => (holdsAt.proper block member).1) fun newest isNewest => by
      have bounds := holdsAt.proper newest (List.mem_of_mem_head? isNewest)
      omega
  exact storing_shelf holdsAt.sound (fun store => store.recent) yields

/-- Where there is not, they are not. -/
theorem recent_crowded (holdsAt : scene.HoldsAt blocks world)
    (crowded : ¬(scene.shelf world).store.HasRoom) (nonempty : blocks ≠ []) :
    ∃ after accesses,
      scene.ledger.recent world = (.error (.panicked "capacity overflow"), after) ∧
      scene.shelf after = (scene.shelf world).counted accesses :=
  storing_shelf holdsAt.sound (fun store => store.recent)
    (holdsAt.holds.lists.yields_recent_crowded crowded nonempty)

/-! ## Starts -/

/-- A run without a start goes on after the head. -/
theorem startIndex_resume (sound : Store.Sound (scene.shelf world).session.fault)
    (holds : Holds blocks (scene.shelf world).session.database) :
    ∃ after accesses,
      Follower.startIndex scene.ledger (-1) world = (.ok (resumeIndex blocks), after) ∧
      scene.shelf after = (scene.shelf world).counted accesses := by
  have stored := holds.toStored
  unfold Follower.startIndex
  rw [if_neg (not_not_intro rfl)]
  cases blocks with
  | nil =>
      obtain ⟨after, accesses, asked, shelf⟩ :=
        storing_shelf sound (fun _ => BlockStore.head) stored.yields_head_nil
      rw [show scene.ledger.head world = _ from asked]
      exact ⟨after, accesses, rfl, shelf⟩
  | cons newest older =>
      obtain ⟨after, accesses, asked, shelf⟩ :=
        storing_shelf sound (fun _ => BlockStore.head) stored.yields_head
      rw [show scene.ledger.head world = _ from asked]
      exact ⟨after, accesses, rfl, shelf⟩

/-- A run with a start begins there, with only blocks below it left. -/
theorem startIndex_at (keeps : (scene.shelf world).Keeps Holds blocks) {start first : Int64}
    {after : σ} (natural : 0 ≤ start)
    (started : Follower.startIndex scene.ledger start world = (.ok first, after)) :
    first = start ∧ ∃ left, left <:+ blocks ∧ (∀ newest ∈ left.head?, newest.id.index < start) ∧
      (scene.shelf after).Keeps Holds left ∧
      (scene.shelf after).store = (scene.shelf world).store := by
  have stored := keeps.kept.toStored
  have given : start ≠ -1 := by
    rintro rfl
    exact absurd natural (by decide)
  unfold Follower.startIndex at started
  rw [if_pos given] at started
  cases blocks with
  | nil =>
      obtain ⟨_, asked, kept⟩ := storing_eq keeps (fun store => store.setStart start)
        (stored.yields_setStart_nil _ natural) keeps.kept
      rw [show scene.ledger.setStart start world = _ from asked] at started
      cases started
      exact ⟨rfl, [], List.suffix_rfl, fun _ none => (nomatch none), kept⟩
  | cons newest older =>
      by_cases ahead : newest.id.index + 1 < start
      · obtain ⟨_, asked, -⟩ := storing_eq keeps (fun store => store.setStart start)
          (stored.yields_setStart_ahead _ natural ahead) keeps.kept
        rw [show scene.ledger.setStart start world = _ from asked] at started
        cases started
      · obtain ⟨database, unwinds, yields⟩ := stored.yields_setStart keeps.kept.settled keeps.tame
          natural (Int64.not_lt.1 ahead)
        obtain ⟨_, asked, kept⟩ := storing_eq keeps (fun store => store.setStart start) yields
          (Store.lasting_holds.unwinds unwinds keeps.kept)
        rw [show scene.ledger.setStart start world = _ from asked] at started
        cases started
        exact ⟨rfl, (newest :: older).dropWhile fun block => start ≤ block.id.index,
          List.dropWhile_suffix _, fun _ isNewest => Store.lt_of_mem_head?_dropWhile isNewest,
          kept⟩

/-! ## Runs as far as the engine -/

/-- The chain that is left where a run starts. -/
theorem HoldsAt.left {left : List Block} {between : σ} (holdsAt : scene.HoldsAt blocks world)
    (suffix : left <:+ blocks) (sound : Store.Sound (scene.shelf between).session.fault)
    (holds : Holds left (scene.shelf between).session.database) : scene.HoldsAt left between :=
  ⟨sound, holds, fun block member => holdsAt.proper block (suffix.subset member)⟩

section

variable {between : σ} (same : (scene.shelf between).store =
  (scene.shelf (scene.ledger.prepare follower.workers world)).store)
include same

theorem cacheSize_started :
    (scene.shelf between).store.cacheSize = (scene.shelf world).store.cacheSize := by
  rw [same, shelf_prepare]

theorem hasRoom_started :
    (scene.shelf between).store.HasRoom ↔ (scene.shelf world).store.HasRoom := by
  rw [BlockStore.hasRoom_iff, cacheSize_started same, ← BlockStore.hasRoom_iff]

end

section

variable {start first : Int64} {left : List Block} {between : σ} (valid : -1 ≤ start)
  (started : Follower.startIndex scene.ledger start
    (scene.ledger.prepare follower.workers world) = (.ok first, between))
include valid started

/-- Once its start is settled, a run reads the newest blocks. -/
theorem prepare_of_started :
    follower.prepare scene.ledger start world =
      ((scene.ledger.recent between).1.map fun recent => (first, follower.engine recent),
        (scene.ledger.recent between).2) := by
  unfold Follower.prepare
  rw [if_neg (Int64.not_lt.2 valid)]
  dsimp only
  rw [started]
  dsimp only
  cases scene.ledger.recent between with
  | mk result after => cases result <;> rfl

variable (holdsAt : scene.HoldsAt left between)
  (same : (scene.shelf between).store =
    (scene.shelf (scene.ledger.prepare follower.workers world)).store)
include holdsAt same

/-- With room for them, it has them in its window. -/
theorem prepare_of_startIndex (room : left ≠ [] → (scene.shelf world).store.HasRoom) :
    ∃ after accesses, follower.prepare scene.ledger start world =
        (.ok (first, startEngine follower (scene.shelf world).store.cacheSize left), after) ∧
      scene.shelf after = (scene.shelf between).counted accesses := by
  obtain ⟨after, accesses, found, shelf⟩ :=
    recent_eq holdsAt fun nonempty => (hasRoom_started same).2 (room nonempty)
  refine ⟨after, accesses, ?_, shelf⟩
  rw [prepare_of_started valid started, found, startEngine, ← cacheSize_started same]
  rfl

/-- It panics without room for them. -/
theorem prepare_of_startIndex_crowded (crowded : ¬(scene.shelf world).store.HasRoom)
    (nonempty : left ≠ []) :
    ∃ after accesses, follower.prepare scene.ledger start world =
        (.error (.panicked "capacity overflow"), after) ∧
      scene.shelf after = (scene.shelf between).counted accesses := by
  obtain ⟨after, accesses, found, shelf⟩ :=
    recent_crowded holdsAt (mt (hasRoom_started same).1 crowded) nonempty
  refine ⟨after, accesses, ?_, shelf⟩
  rw [prepare_of_started valid started, found]
  rfl

/-- So there was room for them if it gets as far as its engine. -/
theorem prepared_of_startIndex {place : Int64} {engine : Engine} {after : σ}
    (keeps : (scene.shelf between).Keeps Holds left)
    (prepared : follower.prepare scene.ledger start world = (.ok (place, engine), after)) :
    place = first ∧ engine = startEngine follower (scene.shelf world).store.cacheSize left ∧
      (scene.shelf after).Keeps Holds left := by
  have room (nonempty : left ≠ []) : (scene.shelf world).store.HasRoom := by
    refine Decidable.not_not.1 fun crowded => ?_
    obtain ⟨_, _, refused, -⟩ :=
      prepare_of_startIndex_crowded valid started holdsAt same crowded nonempty
    cases prepared.symm.trans refused
  obtain ⟨_, accesses, ready, shelf⟩ := prepare_of_startIndex valid started holdsAt same room
  cases prepared.symm.trans ready
  exact ⟨rfl, rfl, shelf ▸ keeps.counted accesses⟩

end

/-- A run without a start looks for the head first, and only reads to find it. -/
theorem resumed_startIndex (follower : Follower) (holdsAt : scene.HoldsAt blocks world) :
    ∃ between accesses,
      Follower.startIndex scene.ledger (-1) (scene.ledger.prepare follower.workers world) =
        (.ok (resumeIndex blocks), between) ∧
      scene.HoldsAt blocks between ∧
      (scene.shelf between).store =
        (scene.shelf (scene.ledger.prepare follower.workers world)).store ∧
      scene.shelf between = Store.Shelf.counted
        ⟨{ (scene.shelf world).store with workers := follower.workers },
          (scene.shelf world).session⟩ accesses := by
  have prepared : scene.shelf (scene.ledger.prepare follower.workers world) =
      ⟨{ (scene.shelf world).store with workers := follower.workers },
        (scene.shelf world).session⟩ := shelf_prepare follower.workers
  have sound : Store.Sound
      (scene.shelf (scene.ledger.prepare follower.workers world)).session.fault :=
    prepared ▸ holdsAt.sound
  have holds : Holds blocks
      (scene.shelf (scene.ledger.prepare follower.workers world)).session.database :=
    prepared ▸ holdsAt.holds
  obtain ⟨between, accesses, started, shelf⟩ := startIndex_resume sound holds
  refine ⟨between, accesses, started, ?_, shelf ▸ rfl, shelf.trans (prepared ▸ rfl)⟩
  exact holdsAt.left List.suffix_rfl (shelf ▸ sound) (shelf ▸ holds)

/-- A run without a start begins after the head, and only reads until then. -/
theorem prepare_resume_counted (follower : Follower) (holdsAt : scene.HoldsAt blocks world)
    (room : blocks ≠ [] → (scene.shelf world).store.HasRoom) :
    ∃ after accesses, follower.prepare scene.ledger (-1) world =
        (.ok (resumeIndex blocks,
          startEngine follower (scene.shelf world).store.cacheSize blocks), after) ∧
      scene.shelf after = Store.Shelf.counted
        ⟨{ (scene.shelf world).store with workers := follower.workers },
          (scene.shelf world).session⟩ accesses := by
  obtain ⟨between, count, started, holdsBetween, same, shelf⟩ :=
    resumed_startIndex follower holdsAt
  obtain ⟨after, accesses, ready, shelfAfter⟩ :=
    prepare_of_startIndex (by decide) started holdsBetween same room
  refine ⟨after, accesses, ready, ?_⟩
  rw [shelfAfter, shelf]
  rfl

/-- It panics where blocks are stored and there is no room for those to start from. -/
theorem prepare_resume_crowded (follower : Follower) (holdsAt : scene.HoldsAt blocks world)
    (crowded : ¬(scene.shelf world).store.HasRoom) (nonempty : blocks ≠ []) :
    ∃ after accesses, follower.prepare scene.ledger (-1) world =
        (.error (.panicked "capacity overflow"), after) ∧
      scene.shelf after = Store.Shelf.counted
        ⟨{ (scene.shelf world).store with workers := follower.workers },
          (scene.shelf world).session⟩ accesses := by
  obtain ⟨between, count, started, holdsBetween, same, shelf⟩ :=
    resumed_startIndex follower holdsAt
  obtain ⟨after, accesses, refused, shelfAfter⟩ :=
    prepare_of_startIndex_crowded (by decide) started holdsBetween same crowded nonempty
  refine ⟨after, accesses, refused, ?_⟩
  rw [shelfAfter, shelf]
  rfl

/-- A run without a start begins after the head. -/
theorem prepare_resume (follower : Follower) (holdsAt : scene.HoldsAt blocks world)
    (room : blocks ≠ [] → (scene.shelf world).store.HasRoom)
    (tame : ∀ worker ∈ follower.workers, worker.Tame) :
    ∃ after, follower.prepare scene.ledger (-1) world =
        (.ok (resumeIndex blocks,
          startEngine follower (scene.shelf world).store.cacheSize blocks), after) ∧
      (scene.shelf after).Keeps Holds blocks := by
  obtain ⟨after, accesses, ready, shelf⟩ := prepare_resume_counted follower holdsAt room
  refine ⟨after, ready, ?_⟩
  rw [shelf]
  exact ⟨tame, holdsAt.sound, holdsAt.holds⟩

theorem natural_of_valid {start : Int64} (valid : -1 ≤ start) (given : start ≠ -1) :
    0 ≤ start := by
  have differs : start.toInt ≠ -1 := fun same => given (Int64.toInt_inj.1 same)
  have lower : -1 ≤ start.toInt := Int64.le_iff_toInt_le.1 valid
  rw [Int64.le_iff_toInt_le, Int64.toInt_zero]
  omega

/-- A run that gets as far as its engine starts above the chain that is left. -/
theorem prepare_ok {start first : Int64} {engine : Engine} {after : σ}
    (holdsAt : scene.HoldsAt blocks world) (tame : ∀ worker ∈ follower.workers, worker.Tame)
    (prepared : follower.prepare scene.ledger start world = (.ok (first, engine), after)) :
    ∃ left, left <:+ blocks ∧ (scene.shelf after).Keeps Holds left ∧
      engine = startEngine follower (scene.shelf world).store.cacheSize left ∧
      StartsAbove first left := by
  by_cases invalid : start < -1
  · unfold Follower.prepare at prepared
    rw [if_pos invalid] at prepared
    cases prepared
  have valid : -1 ≤ start := Int64.not_lt.1 invalid
  by_cases resumes : start = -1
  · subst resumes
    obtain ⟨between, accesses, began, holdsBetween, same, shelf⟩ :=
      resumed_startIndex follower holdsAt
    have keeps : (scene.shelf between).Keeps Holds blocks :=
      shelf ▸ ⟨tame, holdsAt.sound, holdsAt.holds⟩
    obtain ⟨rfl, rfl, keepsAfter⟩ :=
      prepared_of_startIndex valid began holdsBetween same keeps prepared
    exact ⟨blocks, List.suffix_rfl, keepsAfter, rfl, startsAbove_resumeIndex holdsAt.proper⟩
  · have natural : 0 ≤ start := natural_of_valid valid resumes
    cases began : Follower.startIndex scene.ledger start
        (scene.ledger.prepare follower.workers world) with
    | mk result between =>
        cases result with
        | error error =>
            unfold Follower.prepare at prepared
            rw [if_neg invalid] at prepared
            dsimp only at prepared
            rw [began] at prepared
            cases prepared
        | ok place =>
            obtain ⟨rfl, left, suffix, below, keeps, same⟩ :=
              startIndex_at (holdsAt.prepared tame) natural began
            obtain ⟨rfl, rfl, keepsAfter⟩ := prepared_of_startIndex valid began
              (holdsAt.left suffix keeps.sound keeps.kept) same keeps prepared
            exact ⟨left, suffix, keepsAfter, rfl, Or.inr ⟨natural, below⟩⟩

end Scene

end ChainFollower.Sync
