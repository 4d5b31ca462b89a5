import ChainFollower.Proofs.Store.Recent
import ChainFollower.Proofs.Store.Requests

/-!
# How many blocks are handed out

The blocks to start from are looked for at as many indices as blocks are asked for.  What is found
are the newest blocks, but fewer than there could be where indices are omitted.
-/

namespace ChainFollower.Store

variable {blocks : List Block}

section

variable (falling : blocks.Pairwise fun upper lower => lower.id.index < upper.id.index)
include falling

/-- No two blocks are at one index. -/
theorem length_blocksWithin_le (first stop : Int) :
    (blocksWithin first stop blocks).length ≤ (stop - first).toNat := by
  induction blocks generalizing stop with
  | nil => exact Nat.zero_le _
  | cons newest older ih =>
      rw [blocksWithin_cons]
      by_cases within : first ≤ newest.id.index.toInt ∧ newest.id.index.toInt < stop
      · have lowered : blocksWithin first stop older =
            blocksWithin first newest.id.index.toInt older := by
          unfold blocksWithin
          refine List.filter_congr fun block member => decide_eq_decide.2 ?_
          have less := Int64.lt_iff_toInt_lt.1 ((List.pairwise_cons.1 falling).1 block member)
          omega
        have fewer := ih falling.tail newest.id.index.toInt
        rw [if_pos within, List.length_cons, lowered]
        omega
      · rw [if_neg within]
        exact ih falling.tail stop

/-- As many of the newest blocks as asked for are found exactly if they all are at the last
indices. -/
theorem newestOf_eq_take_iff (count : Nat) :
    newestOf count blocks = blocks.take count ↔ ∀ newest ∈ blocks.head?,
      ∀ block ∈ blocks.take count, newest.id.index.toInt < block.id.index.toInt + count := by
  cases blocks with
  | nil => simp [newestOf]
  | cons newest older =>
      constructor
      · rintro found _ ⟨⟩ block member
        rw [← found] at member
        have within := of_decide_eq_true (List.mem_filter.1 member).2
        omega
      · intro near
        -- All of them are in the window, and no more blocks fit into it.
        have inside : blocksWithin (newest.id.index.toInt - count + 1) (newest.id.index.toInt + 1)
            ((newest :: older).take count) = (newest :: older).take count := by
          refine blocksWithin_eq_self fun block member => ?_
          have above := near newest rfl block member
          have below := le_head_of_mem falling rfl (List.mem_of_mem_take member)
          omega
        have most : (blocksWithin (newest.id.index.toInt - count + 1)
            (newest.id.index.toInt + 1) ((newest :: older).take count)).length ≤
              (newestOf count (newest :: older)).length :=
          ((List.take_sublist count (newest :: older)).filter _).length_le
        rw [inside, List.length_take] at most
        have fits : (newestOf count (newest :: older)).length ≤ _ :=
          length_blocksWithin_le falling (newest.id.index.toInt - count + 1)
            (newest.id.index.toInt + 1)
        rw [List.prefix_iff_eq_take.1 (newestOf_isPrefix falling count), List.take_eq_take_iff]
        omega

end

/-- With a head at the last index, the window of no indices wraps around, and all blocks are
found. -/
theorem Lists.yields_recent_wrapped {database : Database} (lists : Lists blocks database)
    {store : BlockStore} (natural : ∀ block ∈ blocks, 0 ≤ block.id.index.toInt)
    (none : store.cacheSize = 0) {newest : Block} (isNewest : newest ∈ blocks.head?)
    (last : newest.id.index = Int64.maxValue) :
    Yields store.recent database (.ok blocks.reverse) database := by
  have room : store.HasRoom := BlockStore.hasRoom_iff.2 (by rw [none]; decide)
  have oldest : max (newest.id.index - store.cacheSize.toInt64 + 1) 0 = 0 := by
    rw [none, last]
    decide
  have found := lists.yields_recent_from room isNewest oldest (by rw [last]; decide)
  have all : blocksWithin (0 : Int64).toInt (newest.id.index.toInt + 1) blocks = blocks :=
    blocksWithin_eq_self fun block member =>
      ⟨natural block member, Int.lt_add_one_of_le (le_head_of_mem lists.falling isNewest member)⟩
  rwa [all] at found

/-- A store with room for the blocks asked for hands out its newest ones, oldest first; without
room there are none, which is a panic.  As many are handed out as asked for or as there are exactly
if there is room for them and they are all at the last so many indices; with a head at the last
index, none cannot be asked for. -/
theorem recent_newest_iff {shelf : Shelf} (sound : Sound shelf.session.fault)
    (lists : Lists blocks shelf.session.database)
    (natural : ∀ block ∈ blocks, 0 ≤ block.id.index) :
    ((blocks ≠ [] → shelf.store.HasRoom) →
        ∃ count, shelf.answer shelf.store.recent = .ok (blocks.take count).reverse) ∧
      (blocks ≠ [] → ¬shelf.store.HasRoom →
        shelf.answer shelf.store.recent = .error (.panicked "capacity overflow")) ∧
      (shelf.answer shelf.store.recent =
          .ok (blocks.take shelf.store.cacheSize.toNat).reverse ↔
        ∀ newest ∈ blocks.head?, shelf.store.HasRoom ∧
          (∀ block ∈ blocks.take shelf.store.cacheSize.toNat,
            newest.id.index.toInt < block.id.index.toInt + shelf.store.cacheSize.toNat) ∧
          (shelf.store.cacheSize = 0 → newest.id.index ≠ Int64.maxValue)) := by
  have naturals : ∀ block ∈ blocks, 0 ≤ block.id.index.toInt :=
    fun block member => Int64.le_iff_toInt_le.1 (natural block member)
  by_cases crowded : blocks ≠ [] ∧ ¬shelf.store.HasRoom
  · obtain ⟨nonempty, crowded⟩ := crowded
    have found := Shelf.answer_eq (lists.yields_recent_crowded crowded nonempty) sound
    refine ⟨fun room => absurd (room nonempty) crowded, fun _ _ => found,
      fun promised => ?_, fun settled => ?_⟩
    · cases found.symm.trans promised
    · obtain ⟨newest, isNewest⟩ := Option.isSome_iff_exists.1 (List.isSome_head?.2 nonempty)
      exact absurd (settled newest isNewest).1 crowded
  have room (nonempty : blocks ≠ []) : shelf.store.HasRoom :=
    Decidable.not_not.1 fun none => crowded ⟨nonempty, none⟩
  have roomy (newest : Block) (isNewest : newest ∈ blocks.head?) : shelf.store.HasRoom :=
    room (List.isSome_head?.1 (Option.isSome_of_mem isNewest))
  suffices answered :
      (∃ count, shelf.answer shelf.store.recent = .ok (blocks.take count).reverse) ∧
        (shelf.answer shelf.store.recent =
            .ok (blocks.take shelf.store.cacheSize.toNat).reverse ↔
          ∀ newest ∈ blocks.head?, shelf.store.HasRoom ∧
            (∀ block ∈ blocks.take shelf.store.cacheSize.toNat,
              newest.id.index.toInt < block.id.index.toInt + shelf.store.cacheSize.toNat) ∧
            (shelf.store.cacheSize = 0 → newest.id.index ≠ Int64.maxValue)) from
    ⟨fun _ => answered.1, fun nonempty none => absurd (room nonempty) none, answered.2⟩
  by_cases overflows : ∃ newest ∈ blocks.head?,
      shelf.store.cacheSize = 0 ∧ newest.id.index = Int64.maxValue
  · obtain ⟨newest, isNewest, none, last⟩ := overflows
    have found := Shelf.answer_eq
      (lists.yields_recent_wrapped naturals none isNewest last) sound
    refine ⟨⟨blocks.length, ?_⟩, fun promised => ?_, fun settled => ?_⟩
    · rw [found, List.take_length]
    · rw [found, none] at promised
      have empty : blocks = [] := List.reverse_eq_nil_iff.1 (Except.ok.inj promised)
      subst empty
      nomatch isNewest
    · exact absurd last ((settled newest isNewest).2.2 none)
  · have settled (newest : Block) (isNewest : newest ∈ blocks.head?)
        (none : shelf.store.cacheSize = 0) : newest.id.index ≠ Int64.maxValue :=
      fun last => overflows ⟨newest, isNewest, none, last⟩
    have fits (newest : Block) (isNewest : newest ∈ blocks.head?) :
        newest.id.index.toInt - shelf.store.cacheSize.toNat < 9223372036854775807 := by
      have upper := Words.toInt_lt newest.id.index
      by_cases none : shelf.store.cacheSize = 0
      · have below := Words.ne_maxValue_iff.1 (settled newest isNewest none)
        omega
      · have some : shelf.store.cacheSize.toNat ≠ 0 :=
          fun zero => none (UInt64.toNat_inj.1 zero)
        omega
    rw [Shelf.answer_eq (lists.yields_recent room naturals fits) sound]
    have isPrefix := newestOf_isPrefix lists.falling shelf.store.cacheSize.toNat
    refine ⟨⟨_, congrArg (Except.ok ·.reverse) (List.prefix_iff_eq_take.1 isPrefix)⟩, ?_⟩
    rw [Except.ok.injEq, List.reverse_inj, newestOf_eq_take_iff lists.falling]
    exact ⟨fun near newest isNewest =>
        ⟨roomy newest isNewest, near newest isNewest, settled newest isNewest⟩,
      fun near newest isNewest => (near newest isNewest).2.1⟩

/-! ## A store with a gap -/

/-- A block twenty indices above the first one. -/
def distantBlock : Block := ⟨⟨20, "b"⟩, ⟨0, "a"⟩, 0, [], none⟩

/-- The store of the first block and the distant one. -/
def gappedShelf : Shelf := (firstShelf.serve (.add distantBlock)).2

theorem gappedShelf_keeps : gappedShelf.Keeps Holds [distantBlock, firstBlock] := by
  refine (firstShelf_keeps.serve_add_child (Json.decode?_encode_bareBlock _ _ _) (by decide)
    (by decide) ?_ ?_).2
  · rintro _ ⟨⟩
    rfl
  · rintro _ ⟨⟩
    decide

theorem cacheSize_gappedShelf : gappedShelf.store.cacheSize = 20 :=
  (congrArg BlockStore.cacheSize (Shelf.store_run firstShelf _)).trans cacheSize_firstShelf

/-- One more index, and both blocks are handed out. -/
theorem recent_newest_widened :
    let shelf : Shelf := ⟨⟨gappedShelf.store.workers, 21⟩, gappedShelf.session⟩
    shelf.answer shelf.store.recent = .ok [firstBlock, distantBlock] := by
  intro shelf
  have keeps : shelf.Keeps Holds [distantBlock, firstBlock] :=
    ⟨gappedShelf_keeps.tame, gappedShelf_keeps.sound, gappedShelf_keeps.kept⟩
  refine (recent_newest_iff keeps.sound keeps.kept.lists (by decide)).2.2.2 ?_
  rintro _ ⟨⟩
  exact ⟨by decide, by decide, by decide⟩

/-- Of the two blocks, the usual twenty indices have one only. -/
theorem recent_gappedShelf :
    gappedShelf.Keeps Holds [distantBlock, firstBlock] ∧
      (∀ block ∈ [distantBlock, firstBlock], 0 ≤ block.id.index) ∧
      gappedShelf.store.cacheSize = BlockStore.defaultCacheSize ∧
      gappedShelf.answer gappedShelf.store.recent = .ok [distantBlock] ∧
      ([distantBlock, firstBlock].take BlockStore.defaultCacheSize.toNat).reverse =
        [firstBlock, distantBlock] := by
  have room : gappedShelf.store.HasRoom :=
    BlockStore.hasRoom_iff.2 (by rw [cacheSize_gappedShelf]; decide)
  have yields := gappedShelf_keeps.kept.lists.yields_recent (fun _ => room) (by decide)
    (by rintro _ ⟨⟩; decide)
  rw [cacheSize_gappedShelf] at yields
  exact ⟨gappedShelf_keeps, by decide, cacheSize_gappedShelf,
    Shelf.answer_eq yields gappedShelf_keeps.sound, rfl⟩

end ChainFollower.Store
