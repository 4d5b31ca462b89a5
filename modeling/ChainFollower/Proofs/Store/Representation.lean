import ChainFollower.Proofs.Store.Requests
import Mathlib.Data.List.Sort

/-!
# What a store represents

As long as blocks are only added above the head, whatever else is asked of a store,
its entries are those of one chain and its lookups answer from that chain.
-/

namespace ChainFollower.Store

/-- Requests whose workers are the transaction index at most, and whose blocks are
above the head, are not stray and survive their JSON form. -/
def Careful (shelf : Shelf) : Request → Prop
  | .prepare workers => workers = [] ∨ workers = [Worker.transactionIndex]
  | .add block => Durable block ∧ ¬Stray block ∧
      ∀ head, shelf.answer BlockStore.head = .ok head → head.index < block.id.index
  | .remove _ => True
  | .setStart _ => True

/-- A store answers from a chain. -/
structure Answers (blocks : List Block) (shelf : Shelf) : Prop where
  head : shelf.answer BlockStore.head =
    match blocks.head? with
    | some newest => .ok newest.id
    | none => .error (.storage .headNotFound)
  headBlock : shelf.answer BlockStore.headBlock =
    match blocks.head? with
    | some newest => .ok newest
    | none => .error (.storage .headNotFound)
  block : ∀ id found, shelf.answer (BlockStore.block id) = .ok found ↔
    found ∈ blocks ∧ found.id = id
  blockMissing : ∀ id, (∀ block ∈ blocks, block.id ≠ id) →
    shelf.answer (BlockStore.block id) = .error (.storage (.blockNotFound id.display))
  blockAt : ∀ index found, shelf.answer (BlockStore.blockAt index) = .ok found ↔
    found ∈ blocks ∧ found.id.index = index
  blockAtMissing : ∀ index, (∀ block ∈ blocks, block.id.index ≠ index) →
    shelf.answer (BlockStore.blockAt index) =
      .error (.storage (.blockNotFound ("index " ++ toString index)))

variable {shelf : Shelf} {newest block : Block} {blocks older : List Block} {workers : List Worker}

theorem tame_of_atMostIndex (atMostIndex : workers = [] ∨ workers = [Worker.transactionIndex]) :
    ∀ worker ∈ workers, worker.Tame := by
  intro worker member
  rcases atMostIndex with rfl | rfl
  · nomatch member
  · rw [List.mem_singleton.1 member]
    exact Worker.tame_transactionIndex

/-- A careful addition is refused, or extends the chain that is held. -/
theorem Shelf.Keeps.serve_add_careful (keeps : shelf.Keeps Holds blocks)
    (careful : Careful shelf (.add block)) :
    ∃ left, (shelf.serve (.add block)).2.Keeps Holds left := by
  obtain ⟨durable, settled, above⟩ := careful
  refine keeps.serve_add lasting_holds block fun fresh child extra aside =>
    keeps.kept.add durable settled fresh child (keeps.kept.lt_of_lt_head ?_) aside
  intro head isHead
  cases blocks with
  | nil => nomatch isHead
  | cons newest older =>
      cases isHead
      exact above _ (answer_eq keeps.kept.yields_head keeps.sound)

/-- Lookups find exactly the blocks of the chain that is held. -/
theorem Shelf.Keeps.answers (keeps : shelf.Keeps Holds blocks) : Answers blocks shelf where
  head := by
    have stored := keeps.kept.toStored
    cases blocks with
    | nil => exact answer_eq stored.yields_head_nil keeps.sound
    | cons newest older => exact answer_eq stored.yields_head keeps.sound
  headBlock := by
    have stored := keeps.kept.toStored
    cases blocks with
    | nil => exact answer_eq (.bind_error stored.yields_head_nil) keeps.sound
    | cons newest older =>
        exact answer_eq (.bind stored.yields_head (stored.yields_block List.mem_cons_self))
          keeps.sound
  block id found := by
    have stored := keeps.kept.toStored
    constructor
    · intro answered
      by_cases missing : ∀ block ∈ blocks, block.id ≠ id
      · rw [answer_eq (stored.yields_block_of_forall_ne missing) keeps.sound] at answered
        cases answered
      · simp only [not_forall, not_not] at missing
        obtain ⟨block, member, rfl⟩ := missing
        rw [answer_eq (stored.yields_block member) keeps.sound] at answered
        cases answered
        exact ⟨member, rfl⟩
    · rintro ⟨member, rfl⟩
      exact answer_eq (stored.yields_block member) keeps.sound
  blockMissing id missing :=
    answer_eq (keeps.kept.toStored.yields_block_of_forall_ne missing) keeps.sound
  blockAt index found := by
    constructor
    · intro answered
      by_cases missing : ∀ block ∈ blocks, block.id.index ≠ index
      · rw [answer_eq (keeps.kept.yields_blockAt_of_forall_ne missing) keeps.sound] at answered
        cases answered
      · simp only [not_forall, not_not] at missing
        obtain ⟨block, member, rfl⟩ := missing
        rw [answer_eq (keeps.kept.yields_blockAt member) keeps.sound] at answered
        cases answered
        exact ⟨member, rfl⟩
    · rintro ⟨member, rfl⟩
      exact answer_eq (keeps.kept.yields_blockAt member) keeps.sound
  blockAtMissing index missing :=
    answer_eq (keeps.kept.yields_blockAt_of_forall_ne missing) keeps.sound

/-- After any careful requests, granted or refused, the entries under the keys of
chains are those of one chain with rising indices, distinct hashes and parents that
link it, and every lookup answers from that chain. -/
theorem represents_chain (reachable : Reachable Careful shelf) :
    ∃ blocks : List Block,
      blocks.IsChain (fun upper lower => upper.parent = lower.id) ∧
      blocks.Pairwise (fun upper lower => lower.id.index < upper.id.index) ∧
      blocks.Pairwise (fun upper lower => upper.id.hash ≠ lower.id.hash) ∧
      (∀ entry, entry ∈ shelf.session.database.entries.entries ∧ Key.OfChain entry.1 ↔
        entry ∈ chainEntries blocks) ∧
      Answers blocks shelf := by
  obtain ⟨blocks, keeps⟩ := Shelf.exists_keeps_of_reachable lasting_holds Holds.empty
    tame_of_atMostIndex Shelf.Keeps.serve_add_careful reachable
  have holds := keeps.kept
  exact ⟨blocks, holds.linked, holds.falling, List.pairwise_map.1 holds.distinct,
    holds.mem_entries_iff, keeps.answers⟩

/-! ## One chain -/

/-- A store answers from one chain with rising indices. -/
theorem Answers.eq_of_rising {others : List Block} (answers : Answers blocks shelf)
    (answersOthers : Answers others shelf)
    (rising : blocks.Pairwise fun upper lower => lower.id.index < upper.id.index)
    (risingOthers : others.Pairwise fun upper lower => lower.id.index < upper.id.index) :
    blocks = others := by
  have : Std.Irrefl fun upper lower : Block => lower.id.index < upper.id.index :=
    ⟨fun _ => Int64.lt_irrefl⟩
  have : Std.Antisymm fun upper lower : Block => lower.id.index < upper.id.index :=
    ⟨fun _ _ below above => absurd (Int64.lt_trans below above) Int64.lt_irrefl⟩
  refine rising.eq_of_mem_iff risingOthers fun found => ?_
  have member := (answers.block found.id found).symm.trans (answersOthers.block found.id found)
  simpa only [and_true] using member

/-! ## A careful history -/

/-- Careful requests have led to a chain. -/
structure Shelf.Grown (blocks : List Block) (shelf : Shelf) : Prop where
  reachable : Reachable Careful shelf
  keeps : shelf.Keeps Holds blocks

/-- A block above the newest one is a careful addition. -/
theorem Shelf.Keeps.careful_add (keeps : shelf.Keeps Holds blocks) (durable : Durable block)
    (settled : ¬Stray block) (above : ∀ head ∈ blocks.head?, head.id.index < block.id.index) :
    Careful shelf (.add block) := by
  refine ⟨durable, settled, fun head answered => ?_⟩
  rw [keeps.answers.head] at answered
  cases blocks with
  | nil => cases answered
  | cons newest older =>
      cases answered
      exact above newest rfl

theorem Shelf.Grown.add (grown : shelf.Grown blocks) (durable : Durable block)
    (settled : ¬Stray block) (fresh : block.id.hash ∉ blocks.map (·.id.hash))
    (child : ∀ head ∈ blocks.head?, block.parent = head.id)
    (above : ∀ head ∈ blocks.head?, head.id.index < block.id.index) :
    (shelf.serve (.add block)).2.Grown (block :: blocks) where
  reachable := grown.reachable.serve _ (grown.keeps.careful_add durable settled above)
  keeps := (grown.keeps.serve_add_child durable settled fresh child above).2

theorem Shelf.Grown.add_notChild (grown : shelf.Grown (newest :: older))
    (durable : Durable block) (settled : ¬Stray block)
    (fresh : block.id.hash ∉ (newest :: older).map (·.id.hash))
    (notChild : block.parent ≠ newest.id) (above : newest.id.index < block.id.index) :
    (shelf.serve (.add block)).1 =
        .error (.storage (.notChildOfHead block.id.display newest.id.display)) ∧
      (shelf.serve (.add block)).2.Grown (newest :: older) := by
  have refused := grown.keeps.run
    (grown.keeps.kept.toStored.yields_add_notChild shelf.store fresh notChild) grown.keeps.kept
  refine ⟨refused.1, grown.reachable.serve _ ?_, refused.2⟩
  refine grown.keeps.careful_add durable settled ?_
  rintro _ ⟨⟩
  exact above

theorem Shelf.Grown.remove_notHead (grown : shelf.Grown (newest :: older)) {id : BlockId}
    (other : newest.id ≠ id) :
    (shelf.serve (.remove id)).1 =
        .error (.storage (.notHead id.display newest.id.display)) ∧
      (shelf.serve (.remove id)).2.Grown (newest :: older) := by
  have refused := grown.keeps.run
    (grown.keeps.kept.toStored.yields_remove_notHead shelf.store other) grown.keeps.kept
  exact ⟨refused.1, grown.reachable.serve _ trivial, refused.2⟩

theorem Shelf.Grown.remove (grown : shelf.Grown (newest :: older)) :
    (shelf.serve (.remove newest.id)).1 = .ok () ∧
      (shelf.serve (.remove newest.id)).2.Grown older := by
  have holds := grown.keeps.kept
  obtain ⟨extra, aside, removes⟩ := holds.toStored.yields_remove grown.keeps.tame
  rw [holds.toStored.nextHead_eq (holds.settled _ List.mem_cons_self)] at removes
  have removed := grown.keeps.run removes (holds.remove aside)
  exact ⟨removed.1, grown.reachable.serve _ trivial, removed.2⟩

/-- A child of the first block that leaves an index out. -/
def skippingBlock : Block := ⟨⟨2, "c"⟩, ⟨0, "a"⟩, 0, [], none⟩

/-- A block above it whose parent is not stored. -/
def lostBlock : Block := ⟨⟨3, "d"⟩, ⟨1, "b"⟩, 0, [], none⟩

/-- A child of the skipping block. -/
def crestBlock : Block := ⟨⟨5, "e"⟩, ⟨2, "c"⟩, 0, [], none⟩

/-- The store of the first block and the skipping one, with the transaction index. -/
def skippingShelf : Shelf :=
  (((emptyShelf.serve (.prepare [Worker.transactionIndex])).2.serve (.add firstBlock)).2.serve
    (.add skippingBlock)).2

theorem skippingShelf_grown : skippingShelf.Grown [skippingBlock, firstBlock] := by
  have opened : (emptyShelf.serve (.prepare [Worker.transactionIndex])).2.Grown [] :=
    ⟨.serve (.empty _ .volatile) _ (Or.inr rfl), tame_of_atMostIndex (Or.inr rfl),
      sound_reliable _, .empty .volatile⟩
  have first : ((emptyShelf.serve (.prepare [Worker.transactionIndex])).2.serve
      (.add firstBlock)).2.Grown [firstBlock] :=
    opened.add (Json.decode?_encode_bareBlock _ _ _) (by decide) List.not_mem_nil (by decide)
      (by decide)
  exact first.add (Json.decode?_encode_bareBlock _ _ _) (by decide) (by decide) (by decide)
    (by decide)

/-- The lost block is refused. -/
theorem skippingShelf_lost :
    (skippingShelf.serve (.add lostBlock)).1 =
        .error (.storage (.notChildOfHead lostBlock.id.display skippingBlock.id.display)) ∧
      (skippingShelf.serve (.add lostBlock)).2.Grown [skippingBlock, firstBlock] :=
  skippingShelf_grown.add_notChild (Json.decode?_encode_bareBlock _ _ _) (by decide) (by decide)
    (by decide) (by decide)

/-- The store after that, with the crest. -/
def crestShelf : Shelf := ((skippingShelf.serve (.add lostBlock)).2.serve (.add crestBlock)).2

theorem crestShelf_grown : crestShelf.Grown [crestBlock, skippingBlock, firstBlock] :=
  skippingShelf_lost.2.add (Json.decode?_encode_bareBlock _ _ _) (by decide) (by decide) (by decide)
    (by decide)

/-- A store that refused a block with an unknown parent and the removal of another block than the
newest answers from the blocks below that one once it is removed. -/
theorem represents_chain_crestShelf :
    (skippingShelf.serve (.add lostBlock)).1 =
        .error (.storage (.notChildOfHead "d:3" "c:2")) ∧
      (crestShelf.serve (.remove skippingBlock.id)).1 =
        .error (.storage (.notHead "c:2" "e:5")) ∧
      let lowered := (crestShelf.serve (.remove skippingBlock.id)).2.serve (.remove crestBlock.id)
      lowered.1 = .ok () ∧
      (∀ entry, entry ∈ lowered.2.session.database.entries.entries ∧ Key.OfChain entry.1 ↔
        entry ∈ chainEntries [skippingBlock, firstBlock]) ∧
      Answers [skippingBlock, firstBlock] lowered.2 := by
  have held := crestShelf_grown.remove_notHead (show crestBlock.id ≠ skippingBlock.id by decide)
  have lowered := held.2.remove
  obtain ⟨blocks, -, rising, -, entries, answers⟩ := represents_chain lowered.2.reachable
  have same : blocks = [skippingBlock, firstBlock] :=
    answers.eq_of_rising lowered.2.keeps.answers rising lowered.2.keeps.kept.falling
  rw [same] at entries answers
  exact ⟨skippingShelf_lost.1.trans rfl, held.1.trans rfl, lowered.1, entries, answers⟩

end ChainFollower.Store
