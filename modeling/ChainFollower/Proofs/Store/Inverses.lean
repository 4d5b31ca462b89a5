import ChainFollower.Proofs.Store.Upkeep

/-!
# Additions and removals undo each other

A chain and the counters determine the entries of a store with a transaction index.  So the removal
of a block that was added brings back the very database from before, and so does the addition of
the head that was removed.
-/

namespace ChainFollower.Store

variable {blocks older : List Block} {newest block : Block} {shelf : Shelf}

namespace Shelf

/-- A block above the head that is granted is new, and a child of the head. -/
theorem Tends.child_of_granted (tends : shelf.Tends blocks)
    (granted : (shelf.serve (.add block)).1 = .ok ()) :
    block.id.hash ∉ blocks.map (·.id.hash) ∧ ∀ head ∈ blocks.head?, block.parent = head.id := by
  by_contra refused
  obtain ⟨error, ended, -⟩ := tends.serve_add_refused refused
  rw [granted] at ended
  cases ended

/-- The removal of a block that was added leaves the database from before. -/
theorem Tends.remove_added (tends : shelf.Tends blocks) (durable : Durable block)
    (settled : ¬Stray block) (tidy : Tidy block)
    (above : ∀ head ∈ blocks.head?, head.id.index < block.id.index)
    (granted : (shelf.serve (.add block)).1 = .ok ()) :
    ((shelf.serve (.add block)).2.serve (.remove block.id)).1 = .ok () ∧
      ((shelf.serve (.add block)).2.serve (.remove block.id)).2.session.database =
        shelf.session.database := by
  obtain ⟨fresh, child⟩ := tends.child_of_granted granted
  obtain ⟨-, tendsAdded, counters⟩ :=
    tends.serve_add_child durable settled tidy fresh child above
  obtain ⟨removed, tendsAfter, countersAfter⟩ := tendsAdded.serve_remove_head
  exact ⟨removed, tendsAfter.indexes.eq tends.indexes (counters.trans countersAfter).symm⟩

/-- The head can be added again where it was removed, which leaves the database from before. -/
theorem Tends.add_removed (tends : shelf.Tends (newest :: older)) :
    (shelf.serve (.remove newest.id)).1 = .ok () ∧
      ((shelf.serve (.remove newest.id)).2.serve (.add newest)).1 = .ok () ∧
      ((shelf.serve (.remove newest.id)).2.serve (.add newest)).2.session.database =
        shelf.session.database := by
  have indexes := tends.indexes
  have child : ∀ head ∈ older.head?, newest.parent = head.id :=
    (List.isChain_cons.1 indexes.linked).1
  have above : ∀ head ∈ older.head?, head.id.index < newest.id.index := fun head isHead =>
    indexes.lt_newest (List.mem_of_head? isHead)
  obtain ⟨removed, tendsRemoved, counters⟩ := tends.serve_remove_head
  obtain ⟨added, tendsAfter, countersAfter⟩ := tendsRemoved.serve_add_child
    (indexes.durable newest List.mem_cons_self) (indexes.settled newest List.mem_cons_self)
    (indexes.tidy newest List.mem_cons_self) indexes.newest_notMem child above
  exact ⟨removed, added, tendsAfter.indexes.eq indexes (counters.trans countersAfter).symm⟩

end Shelf

/-- After any history of requests with blocks above the head, the removal of a further block that
is added succeeds and restores the database, and so does the addition of the head that is
removed, down to the first block. -/
theorem additions_removals_inverse (tended : Tended (fun _ => True) blocks shelf) :
    Answers blocks shelf ∧
    (∀ block, Suits (fun _ => True) blocks (.add block) →
      (shelf.serve (.add block)).1 = .ok () →
      ((shelf.serve (.add block)).2.serve (.remove block.id)).1 = .ok () ∧
      ((shelf.serve (.add block)).2.serve (.remove block.id)).2.session.database =
        shelf.session.database) ∧
    ∀ head ∈ blocks.head?,
      (shelf.serve (.remove head.id)).1 = .ok () ∧
      ((shelf.serve (.remove head.id)).2.serve (.add head)).1 = .ok () ∧
      ((shelf.serve (.remove head.id)).2.serve (.add head)).2.session.database =
        shelf.session.database := by
  have tends := tended.tends
  refine ⟨tends.answers, fun block suits granted => ?_, fun head isHead => ?_⟩
  · obtain ⟨durable, settled, tidy, above, -⟩ := suits
    exact tends.remove_added durable settled tidy above granted
  · cases blocks with
    | nil => nomatch isHead
    | cons newest older =>
        cases isHead
        exact tends.add_removed

/-- A block that carries the transaction of both blocks below it. -/
def thriceBlock : Block :=
  ⟨⟨3, "d"⟩, ⟨2, "b/c"⟩, 0, [⟨⟨"t"⟩, [], none⟩], none⟩

/-- The block is added above the two blocks and removed again; and the upper one of the two is
removed and added again. -/
theorem additions_removals_inverse_restored :
    ((restoredShelf.serve (.add thriceBlock)).2.serve (.remove thriceBlock.id)).2.session.database =
        restoredShelf.session.database ∧
      ((restoredShelf.serve (.remove onceBlock.id)).2.serve (.add onceBlock)).2.session.database =
        restoredShelf.session.database := by
  have tended : Tended (fun _ => True) [onceBlock, twiceBlock] restoredShelf :=
    tended_restoredShelf trivial trivial
  have durable : Durable thriceBlock :=
    Json.decode?_encode (fun _ member => (List.not_mem_nil member).elim) (by decide)
  have child : ∀ head ∈ [onceBlock, twiceBlock].head?, thriceBlock.parent = head.id := by decide
  have above : ∀ head ∈ [onceBlock, twiceBlock].head?, head.id.index < thriceBlock.id.index := by
    decide
  obtain ⟨granted, -⟩ := tended.tends.serve_add_child durable (by decide) (by decide) (by decide)
    child above
  obtain ⟨-, removed, added⟩ := additions_removals_inverse tended
  obtain ⟨-, restored⟩ :=
    removed thriceBlock ⟨durable, by decide, by decide, above, trivial⟩ granted
  obtain ⟨-, -, restoredHead⟩ := added onceBlock rfl
  exact ⟨restored, restoredHead⟩

end ChainFollower.Store
