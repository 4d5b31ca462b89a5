import ChainFollower.Block.Form
import Mathlib.Data.List.Chain

/-!
# Chains of blocks

Lists of blocks, newest first, in which each block is the child of the next.
-/

namespace ChainFollower

theorem BlockId.ext {left right : BlockId} (sameIndex : left.index = right.index)
    (sameHash : left.hash = right.hash) : left = right := by
  cases left
  cases right
  cases sameIndex
  cases sameHash
  rfl

namespace Store

/-- A block whose stored text reads back as the block. -/
def Durable (block : Block) : Prop :=
  Json.decode? (Json.encode block) = some block

/-- A block whose parent has its own hash at another index. -/
def Stray (block : Block) : Prop :=
  block.parent.hash = block.id.hash ∧ block.parent ≠ block.id

instance (block : Block) : Decidable (Stray block) :=
  inferInstanceAs (Decidable (_ ∧ _))

/-- The block of a hash. -/
def withHash? (hash : String) (blocks : List Block) : Option Block :=
  blocks.find? fun block => block.id.hash = hash

/-- The block at an index. -/
def atIndex? (index : Int64) (blocks : List Block) : Option Block :=
  blocks.find? fun block => block.id.index = index

/-- Blocks, newest first, in which each block is the child of the next, no two
share a hash and each can be stored. -/
structure Chain (blocks : List Block) : Prop where
  linked : blocks.IsChain fun upper lower => upper.parent = lower.id
  distinct : (blocks.map (·.id.hash)).Nodup
  durable : ∀ block ∈ blocks, Durable block

/-- A chain with falling indices in which no block is stray. -/
structure Orderly (blocks : List Block) : Prop extends Chain blocks where
  falling : blocks.Pairwise fun upper lower => lower.id.index < upper.id.index
  settled : ∀ block ∈ blocks, ¬Stray block

variable {block newest lower : Block} {blocks older : List Block} {hash : String} {index : Int64}

/-! ## Lookups -/

@[simp] theorem withHash?_nil : withHash? hash [] = none := rfl

theorem withHash?_cons :
    withHash? hash (block :: blocks) =
      if block.id.hash = hash then some block else withHash? hash blocks := by
  rw [withHash?, List.find?_cons]
  split <;> simp_all [withHash?]

theorem atIndex?_cons :
    atIndex? index (block :: blocks) =
      if block.id.index = index then some block else atIndex? index blocks := by
  rw [atIndex?, List.find?_cons]
  split <;> simp_all [atIndex?]

theorem mem_of_withHash? (found : withHash? hash blocks = some block) :
    block ∈ blocks ∧ block.id.hash = hash :=
  ⟨List.mem_of_find?_eq_some found, by simpa using List.find?_some found⟩

theorem withHash?_eq_none_iff :
    withHash? hash blocks = none ↔ hash ∉ blocks.map (·.id.hash) := by
  simp [withHash?]

theorem mem_of_atIndex? (found : atIndex? index blocks = some block) :
    block ∈ blocks ∧ block.id.index = index :=
  ⟨List.mem_of_find?_eq_some found, by simpa using List.find?_some found⟩

theorem atIndex?_eq_none_iff :
    atIndex? index blocks = none ↔ ∀ block ∈ blocks, block.id.index ≠ index := by
  simp [atIndex?]

/-! ## Chains -/

theorem Chain.nil : Chain [] :=
  ⟨.nil, .nil, fun _ member => nomatch member⟩

theorem Chain.tail (chain : Chain (newest :: older)) : Chain older :=
  ⟨chain.linked.tail, (List.nodup_cons.1 chain.distinct).2, fun block member =>
    chain.durable block (List.mem_cons_of_mem _ member)⟩

/-- The hash of the newest block is not among the older ones. -/
theorem Chain.newest_notMem (chain : Chain (newest :: older)) :
    newest.id.hash ∉ older.map (·.id.hash) :=
  (List.nodup_cons.1 chain.distinct).1

/-- A new child of the newest block makes the chain longer. -/
theorem Chain.cons (chain : Chain blocks) (fresh : block.id.hash ∉ blocks.map (·.id.hash))
    (child : ∀ head ∈ blocks.head?, block.parent = head.id) (durable : Durable block) :
    Chain (block :: blocks) where
  linked := List.isChain_cons.2 ⟨child, chain.linked⟩
  distinct := List.nodup_cons.2 ⟨fresh, chain.distinct⟩
  durable := by
    intro other member
    rcases List.mem_cons.1 member with rfl | member
    · exact durable
    · exact chain.durable other member

/-- A block of a chain is found under its hash. -/
theorem Chain.withHash?_of_mem (chain : Chain blocks) (member : block ∈ blocks) :
    withHash? block.id.hash blocks = some block := by
  induction blocks with
  | nil => nomatch member
  | cons newest older ih =>
      rw [withHash?_cons]
      rcases List.mem_cons.1 member with rfl | member
      · rw [if_pos rfl]
      · rw [if_neg, ih chain.tail member]
        intro same
        exact chain.newest_notMem (same ▸ List.mem_map_of_mem member)

theorem Chain.parent_newest (chain : Chain (newest :: lower :: older)) :
    newest.parent = lower.id :=
  (List.isChain_cons_cons.1 chain.linked).1

theorem Orderly.nil : Orderly [] :=
  ⟨.nil, .nil, fun _ member => nomatch member⟩

theorem Orderly.tail (orderly : Orderly (newest :: older)) : Orderly older :=
  ⟨orderly.toChain.tail, orderly.falling.tail, fun block member =>
    orderly.settled block (List.mem_cons_of_mem _ member)⟩

/-- The blocks below the newest have smaller indices. -/
theorem Orderly.lt_newest (orderly : Orderly (newest :: older)) (member : lower ∈ older) :
    lower.id.index < newest.id.index :=
  (List.pairwise_cons.1 orderly.falling).1 lower member

theorem Orderly.of_append {upper : List Block} (orderly : Orderly (upper ++ blocks)) :
    Orderly blocks := by
  induction upper with
  | nil => exact orderly
  | cons newest upper ih => exact ih orderly.tail

/-- Blocks above others have greater indices. -/
theorem Orderly.lt_of_append {upper : List Block} (orderly : Orderly (upper ++ blocks))
    (member : block ∈ upper) (memberLower : lower ∈ blocks) : lower.id.index < block.id.index :=
  (List.pairwise_append.1 orderly.falling).2.2 block member lower memberLower

/-- What is above the newest block is above every block. -/
theorem Orderly.lt_of_lt_head (orderly : Orderly blocks)
    (above : ∀ head ∈ blocks.head?, head.id.index < index) :
    ∀ lower ∈ blocks, lower.id.index < index := by
  intro lower member
  cases blocks with
  | nil => nomatch member
  | cons newest older =>
      have aboveNewest := above newest rfl
      rcases List.mem_cons.1 member with rfl | member
      · exact aboveNewest
      · exact Int64.lt_trans (orderly.lt_newest member) aboveNewest

/-- Among falling indices, a block is found at its own. -/
theorem atIndex?_of_falling
    (falling : blocks.Pairwise fun upper lower => lower.id.index < upper.id.index)
    (member : block ∈ blocks) : atIndex? block.id.index blocks = some block := by
  induction blocks with
  | nil => nomatch member
  | cons newest older ih =>
      obtain ⟨below, fallingOlder⟩ := List.pairwise_cons.1 falling
      rw [atIndex?_cons]
      rcases List.mem_cons.1 member with rfl | member
      · rw [if_pos rfl]
      · rw [if_neg, ih fallingOlder member]
        intro same
        exact absurd (below block member) (same ▸ Int64.lt_irrefl)

/-- A block of an orderly chain is found at its index. -/
theorem Orderly.atIndex?_of_mem (orderly : Orderly blocks) (member : block ∈ blocks) :
    atIndex? block.id.index blocks = some block :=
  atIndex?_of_falling orderly.falling member

end Store

end ChainFollower
