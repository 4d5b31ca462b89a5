import ChainFollower.Proofs.Sync.FixedRemote

/-!
# Chains that agree with a remote node

A chain agrees with the chain of a remote node in a range of indices if its blocks are
those that the remote node has in the range.  The parent of the next block shows
whether it does up to that block.
-/

namespace ChainFollower.Sync

open Store (Holds Orderly)

/-- The blocks are those of the remote chain with indices in the range. -/
def Agrees (remote : Int64 → Option Block) (low top : Int) (blocks : List Block) : Prop :=
  ∀ block, block ∈ blocks ↔
    ∃ index : Int64, low ≤ index.toInt ∧ index.toInt < top ∧ remote index = some block

variable {remote : Int64 → Option Block} {genesis tip index next : Int64} {low top : Int}
  {block newest : Block} {blocks older : List Block}

/-! ## Ranges -/

theorem Agrees.empty (remote : Int64 → Option Block) (low : Int) : Agrees remote low low [] := by
  intro block
  constructor
  · intro none
    cases none
  · rintro ⟨index, above, below, -⟩
    omega

/-- A range may be extended by indices without blocks. -/
theorem Agrees.extend (agrees : Agrees remote low top blocks) {further : Int}
    (longer : top ≤ further)
    (omitted : ∀ index : Int64, top ≤ index.toInt → index.toInt < further → remote index = none) :
    Agrees remote low further blocks := by
  intro block
  rw [agrees block]
  constructor
  · rintro ⟨index, above, below, found⟩
    exact ⟨index, above, by omega, found⟩
  · rintro ⟨index, above, below, found⟩
    by_cases within : index.toInt < top
    · exact ⟨index, above, within, found⟩
    · rw [omitted index (by omega) below] at found
      cases found

/-- A range may be extended by an index without a block. -/
theorem Agrees.skip (agrees : Agrees remote low next.toInt blocks) (omitted : remote next = none) :
    Agrees remote low (next.toInt + 1) blocks := by
  refine agrees.extend (by omega) fun index above below => ?_
  have same : index = next := Int64.toInt_inj.1 (by omega)
  rwa [same]

/-- A range may be extended by an index and its block. -/
theorem Agrees.push (agrees : Agrees remote low next.toInt blocks) (above : low ≤ next.toInt)
    (found : remote next = some block) : Agrees remote low (next.toInt + 1) (block :: blocks) := by
  intro other
  rw [List.mem_cons, agrees other]
  constructor
  · rintro (rfl | ⟨index, aboveIndex, below, foundOther⟩)
    · exact ⟨next, above, by omega, found⟩
    · exact ⟨index, aboveIndex, by omega, foundOther⟩
  · rintro ⟨index, aboveIndex, below, foundOther⟩
    by_cases same : index = next
    · subst same
      exact Or.inl (Option.some.inj (foundOther.symm.trans found))
    · have differs : index.toInt ≠ next.toInt := fun equal => same (Int64.toInt_inj.1 equal)
      exact Or.inr ⟨index, aboveIndex, by omega, foundOther⟩

/-- Without its newest block, a chain agrees in the range below that block. -/
theorem Agrees.pop (chain : RemoteChain remote genesis tip) (orderly : Orderly (newest :: older))
    (agrees : Agrees remote low top (newest :: older)) :
    Agrees remote low newest.id.index.toInt older := by
  obtain ⟨place, abovePlace, belowTop, foundNewest⟩ := (agrees newest).1 List.mem_cons_self
  have atPlace := (chain.place foundNewest).1
  intro block
  constructor
  · intro member
    obtain ⟨index, above, -, found⟩ := (agrees block).1 (List.mem_cons_of_mem _ member)
    have less := Int64.lt_iff_toInt_lt.1 (orderly.lt_newest member)
    rw [(chain.place found).1] at less
    exact ⟨index, above, less, found⟩
  · rintro ⟨index, above, below, found⟩
    rw [atPlace] at below
    have member := (agrees block).2 ⟨index, above, by omega, found⟩
    rcases List.mem_cons.1 member with rfl | member
    · rw [← (chain.place found).1, atPlace] at below
      exact absurd below (Int.lt_irrefl _)
    · exact member

/-! ## Parents -/

/-- The block before the next one is at or above any other below it. -/
theorem RemoteChain.exists_parent (chain : RemoteChain remote genesis tip)
    (found : remote next = some block) {earlier : Block}
    (foundEarlier : remote index = some earlier) (less : index < next) :
    ∃ below lower, remote below = some lower ∧ index ≤ below ∧ below < next ∧
      block.parent = lower.id := by
  have notFirst : next ≠ genesis := by
    rintro rfl
    exact absurd less (Int64.not_lt.2 (chain.place foundEarlier).2.1)
  obtain ⟨below, lower, foundLower, lessNext, parent, omitted⟩ := chain.linked found notFirst
  refine ⟨below, lower, foundLower, Int64.not_lt.1 fun between => ?_, lessNext, parent⟩
  rw [omitted index between less] at foundEarlier
  cases foundEarlier

/-- Where a chain agrees up to the next block, that block is a child of the head. -/
theorem Agrees.parent_eq (chain : RemoteChain remote genesis tip)
    (orderly : Orderly (newest :: older)) (agrees : Agrees remote low next.toInt (newest :: older))
    (found : remote next = some block) : block.parent = newest.id := by
  obtain ⟨index, above, less, foundNewest⟩ := (agrees newest).1 List.mem_cons_self
  obtain ⟨below, lower, foundLower, notBelow, lessNext, parent⟩ :=
    chain.exists_parent found foundNewest (Int64.lt_iff_toInt_lt.2 less)
  have aboveLow : low ≤ below.toInt := Int.le_trans above (Int64.le_iff_toInt_le.1 notBelow)
  have member : lower ∈ newest :: older :=
    (agrees lower).2 ⟨below, aboveLow, Int64.lt_iff_toInt_lt.1 lessNext, foundLower⟩
  rcases List.mem_cons.1 member with same | member
  · rw [parent, same]
  · have notAbove := orderly.lt_newest member
    rw [(chain.place foundLower).1, (chain.place foundNewest).1] at notAbove
    exact absurd notAbove (Int64.not_lt.2 notBelow)

/-- Where a block is missing below the next one, that block is no child of the head. -/
theorem Agrees.parent_ne (chain : RemoteChain remote genesis tip)
    (agrees : Agrees remote low top (newest :: older)) {missing : Block}
    (foundMissing : remote index = some missing) (above : top ≤ index.toInt) (less : index < next)
    (found : remote next = some block) : block.parent ≠ newest.id := by
  obtain ⟨place, -, belowTop, foundNewest⟩ := (agrees newest).1 List.mem_cons_self
  obtain ⟨below, lower, foundLower, notBelow, -, parent⟩ :=
    chain.exists_parent found foundMissing less
  intro same
  have indices := congrArg BlockId.index (parent.symm.trans same)
  rw [(chain.place foundLower).1, (chain.place foundNewest).1] at indices
  have order := Int64.le_iff_toInt_le.1 notBelow
  rw [indices] at order
  omega

/-! ## Blocks in common -/

/-- Blocks of a remote chain have other hashes. -/
def Stranger (remote : Int64 → Option Block) (block : Block) : Prop :=
  ∀ index found, remote index = some found → block.id.hash ≠ found.id.hash

/-- No block of the remote chain is a child of a stranger. -/
theorem Stranger.parent_ne (chain : RemoteChain remote genesis tip)
    (stranger : Stranger remote newest) (found : remote next = some block) :
    block.parent ≠ newest.id := by
  intro same
  by_cases isFirst : next = genesis
  · obtain ⟨first, foundFirst, ownParent⟩ := chain.first
    rw [isFirst, foundFirst] at found
    cases found
    exact stranger genesis _ foundFirst (congrArg BlockId.hash (same.symm.trans ownParent))
  · obtain ⟨below, lower, foundLower, -, parent, -⟩ := chain.linked found isFirst
    exact stranger below lower foundLower (congrArg BlockId.hash (same.symm.trans parent))

/-- Below a block in common, two chains have all blocks in common. -/
theorem agrees_of_common (chain : RemoteChain remote genesis tip)
    (orderly : Orderly (newest :: older)) (common : remote newest.id.index = some newest)
    (unambiguous : ∀ block ∈ older, ∀ index found, remote index = some found →
      block.id.hash = found.id.hash → block = found)
    {oldest : Block} (isOldest : oldest ∈ (newest :: older).getLast?) :
    Agrees remote oldest.id.index.toInt (newest.id.index.toInt + 1) (newest :: older) := by
  induction older generalizing newest with
  | nil =>
      cases isOldest
      exact Agrees.push (.empty remote _) (Int.le_refl _) common
  | cons lower older ih =>
      have notFirst : newest.id.index ≠ genesis := by
        intro isFirst
        obtain ⟨first, foundFirst, ownParent⟩ := chain.first
        rw [← isFirst, common] at foundFirst
        cases foundFirst
        have same := congrArg BlockId.hash (ownParent.symm.trans orderly.parent_newest)
        exact orderly.newest_notMem (same ▸ List.mem_cons_self)
      obtain ⟨below, found, foundBelow, less, parent, omitted⟩ := chain.linked common notFirst
      have same : lower = found := unambiguous lower List.mem_cons_self below found foundBelow
        (congrArg BlockId.hash (orderly.parent_newest.symm.trans parent))
      subst same
      have place := (chain.place foundBelow).1
      subst place
      have agrees := ih orderly.tail foundBelow
        (fun block member => unambiguous block (List.mem_cons_of_mem _ member))
        (by rwa [List.getLast?_cons_cons] at isOldest)
      have lessInt := Int64.lt_iff_toInt_lt.1 less
      have aboveOldest : oldest.id.index.toInt ≤ newest.id.index.toInt := by
        obtain ⟨index, above, below, -⟩ := (agrees lower).1 List.mem_cons_self
        omega
      refine Agrees.push (agrees.extend (by omega) fun index above below => ?_) aboveOldest common
      exact omitted index (Int64.lt_iff_toInt_lt.2 (by omega)) (Int64.lt_iff_toInt_lt.2 below)

end ChainFollower.Sync
