import ChainFollower.Proofs.Store.Upkeep

/-!
# New starts

A new start leaves the very database that holds the blocks below it: the one obtained by adding
those blocks, oldest first, where there is nothing but the counters.
-/

namespace ChainFollower.Store

variable {blocks older : List Block} {shelf : Shelf} {block newest : Block}

namespace Shelf

/-- Adds blocks one after another, as long as each addition is granted. -/
def addAll (shelf : Shelf) : List Block → Except SyncError Unit × Shelf
  | [] => (.ok (), shelf)
  | block :: rest =>
      match shelf.serve (.add block) with
      | (.ok (), after) => after.addAll rest
      | refused => refused

/-- The shelf with nothing in its database but the counters. -/
def emptied (shelf : Shelf) : Shelf :=
  { shelf with session := { shelf.session with database := shelf.session.database.countersOnly } }

/-- The last of several blocks is added where the others were. -/
theorem addAll_concat (added : (shelf.addAll blocks).1 = .ok ()) (block : Block) :
    shelf.addAll (blocks ++ [block]) = (shelf.addAll blocks).2.serve (.add block) := by
  induction blocks generalizing shelf with
  | nil =>
      rw [List.nil_append, addAll, addAll]
      rcases shelf.serve (.add block) with ⟨_ | _, _⟩ <;> rfl
  | cons first rest ih =>
      rw [addAll] at added
      rw [List.cons_append, addAll, addAll]
      cases served : shelf.serve (.add first) with
      | mk result after =>
          rw [served] at added
          cases result with
          | error => cases added
          | ok => exact ih added

/-- The blocks of an orderly chain can all be added, oldest first. -/
theorem Tends.addAll (tends : shelf.Tends []) (orderly : Orderly blocks)
    (tidy : ∀ block ∈ blocks, Tidy block) :
    (shelf.addAll blocks.reverse).1 = .ok () ∧ (shelf.addAll blocks.reverse).2.Tends blocks ∧
      SameCounters shelf.session.database (shelf.addAll blocks.reverse).2.session.database := by
  induction blocks with
  | nil => exact ⟨rfl, tends, .refl _⟩
  | cons newest older ih =>
      obtain ⟨added, tendsOlder, same⟩ :=
        ih orderly.tail fun block member => tidy block (List.mem_cons_of_mem _ member)
      have child : ∀ head ∈ older.head?, newest.parent = head.id :=
        (List.isChain_cons.1 orderly.linked).1
      have above : ∀ head ∈ older.head?, head.id.index < newest.id.index := fun head isHead =>
        orderly.lt_newest (List.mem_of_head? isHead)
      obtain ⟨granted, tendsAll, sameNewest⟩ := tendsOlder.serve_add_child
        (orderly.durable newest List.mem_cons_self) (orderly.settled newest List.mem_cons_self)
        (tidy newest List.mem_cons_self) orderly.newest_notMem child above
      rw [List.reverse_cons, addAll_concat added newest]
      exact ⟨granted, tendsAll, same.trans sameNewest⟩

theorem Tends.emptied (tends : shelf.Tends blocks) : shelf.emptied.Tends [] :=
  ⟨tends.workers, tends.sound, tends.indexes.countersOnly⟩

end Shelf

/-- In an orderly chain, the blocks below the first one below a start are those below it. -/
theorem Orderly.dropWhile_eq_filter (orderly : Orderly blocks) (start : Int64) :
    (blocks.dropWhile fun block => start ≤ block.id.index) =
      blocks.filter fun block => block.id.index < start := by
  induction blocks with
  | nil => rfl
  | cons newest older ih =>
      rw [List.dropWhile_cons, List.filter_cons]
      by_cases below : newest.id.index < start
      · have kept : older.filter (fun block => block.id.index < start) = older := by
          rw [List.filter_eq_self]
          exact fun lower member =>
            decide_eq_true (Int64.lt_trans (orderly.lt_newest member) below)
        rw [if_neg fun above => Int64.not_le.2 below (of_decide_eq_true above),
          if_pos (decide_eq_true below), kept]
      · rw [if_pos (decide_eq_true (Int64.not_lt.1 below)),
          if_neg fun above => below (of_decide_eq_true above)]
        exact ih orderly.tail

/-- Every block that is stored was admitted. -/
theorem Tended.admitted {admits : Block → Prop} (tended : Tended admits blocks shelf) :
    ∀ block ∈ blocks, admits block := by
  induction tended with
  | empty => exact fun _ member => nomatch member
  | @serve blocks shelf _ request suits ih =>
      intro block member
      cases request with
      | prepare => exact ih block member
      | add added =>
          rw [Request.follow] at member
          split at member
          · rcases List.mem_cons.1 member with rfl | member
            · exact suits.2.2.2.2
            · exact ih block member
          · exact ih block member
      | remove id =>
          rw [Request.follow] at member
          split at member
          · exact ih block (List.mem_of_mem_tail member)
          · exact ih block member
      | setStart start =>
          rw [Request.follow] at member
          split at member
          · exact ih block ((List.dropWhile_sublist _).mem member)
          · exact ih block member
  | count _ _ _ ih => exact ih

/-- A new start either is refused and changes nothing, or leaves exactly the database into which
the stored blocks below it were added, oldest first, beside the same counters. -/
theorem setStart_truncates_exactly
    (tended : Tended (fun block => block.id.index ≠ Int64.maxValue) blocks shelf)
    (start : Int64) :
    Answers blocks shelf ∧
    (start < 0 →
      (shelf.serve (.setStart start)).1 = .error (.storage (.negativeStartIndex start)) ∧
      (shelf.serve (.setStart start)).2.session.database = shelf.session.database) ∧
    (∀ head ∈ blocks.head?, 0 ≤ start → head.id.index.toInt + 1 < start.toInt →
      (shelf.serve (.setStart start)).1 =
        .error (.storage (.startIndexAhead head.id.index start)) ∧
      (shelf.serve (.setStart start)).2.session.database = shelf.session.database) ∧
    (0 ≤ start → (∀ head ∈ blocks.head?, start.toInt ≤ head.id.index.toInt + 1) →
      (shelf.serve (.setStart start)).1 = .ok () ∧
      Answers (blocks.filter fun block => block.id.index < start)
        (shelf.serve (.setStart start)).2 ∧
      (shelf.emptied.addAll (blocks.filter fun block => block.id.index < start).reverse).1 =
        .ok () ∧
      (shelf.serve (.setStart start)).2.session.database =
        (shelf.emptied.addAll
          (blocks.filter fun block => block.id.index < start).reverse).2.session.database) := by
  have tends := tended.tends
  have orderly := tends.indexes.toOrderly
  have succ (head : Block) (isHead : head ∈ blocks.head?) :
      (head.id.index + 1).toInt = head.id.index.toInt + 1 :=
    Words.toInt_succ (Words.ne_maxValue_iff.1 (tended.admitted head (List.mem_of_head? isHead)))
  refine ⟨tends.answers, fun negative => ?_, fun head isHead natural ahead => ?_,
    fun natural reached => ?_⟩
  · obtain ⟨refused, -, same⟩ := tends.run_refused (Stored.yields_setStart_negative _ _ negative)
    exact ⟨refused, same⟩
  · cases blocks with
    | nil => nomatch isHead
    | cons newest older =>
        obtain rfl : newest = head := Option.some.inj isHead
        have gap : newest.id.index + 1 < start := by
          rw [Int64.lt_iff_toInt_lt, succ newest rfl]
          exact ahead
        obtain ⟨refused, -, same⟩ :=
          tends.run_refused (tends.indexes.yields_setStart_ahead _ natural gap)
        exact ⟨refused, same⟩
  · have noGap : ∀ head ∈ blocks.head?, start ≤ head.id.index + 1 := by
      intro head isHead
      rw [Int64.le_iff_toInt_le, succ head isHead]
      exact reached head isHead
    obtain ⟨granted, tendsLeft, counters⟩ := tends.serve_setStart_reached natural noGap
    rw [orderly.dropWhile_eq_filter] at tendsLeft
    obtain ⟨added, tendsAdded, countersAdded⟩ := tends.emptied.addAll tendsLeft.indexes.toOrderly
      tendsLeft.indexes.tidy
    refine ⟨granted, tendsLeft.answers, added, tendsLeft.indexes.eq tendsAdded.indexes ?_⟩
    exact counters.symm.trans
      ((Database.sameCounters_countersOnly shelf.session.database).trans countersAdded)

/-- Below a start between the two blocks there is the older one. -/
theorem setStart_truncates_exactly_restored :
    (restoredShelf.serve (.setStart 1)).1 = .ok () ∧
      (restoredShelf.serve (.setStart 1)).2.session.database =
        (restoredShelf.emptied.addAll [twiceBlock]).2.session.database := by
  have tended : Tended (fun block => block.id.index ≠ Int64.maxValue) [onceBlock, twiceBlock]
      restoredShelf := tended_restoredShelf (by decide) (by decide)
  obtain ⟨-, -, -, truncated⟩ := setStart_truncates_exactly tended 1
  obtain ⟨granted, -, -, same⟩ := truncated (by decide) fun head isHead => by
    obtain rfl : onceBlock = head := Option.some.inj isHead
    decide
  have below : ([onceBlock, twiceBlock].filter fun block => block.id.index < 1).reverse =
      [twiceBlock] := rfl
  rw [below] at same
  exact ⟨granted, same⟩

end ChainFollower.Store
