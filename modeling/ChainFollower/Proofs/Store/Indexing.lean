import ChainFollower.Proofs.Store.Rewinding
import ChainFollower.Proofs.Store.Separators
import ChainFollower.Proofs.Store.Tally

/-!
# The entries of the transaction index

`Indexes blocks database` says that a database has the entries of a chain, an entry for every
transaction in one of its blocks, which names the block, and nothing else but counters.  Additions
and removals with the transaction index keep this, and the chain and the counters determine the
database.
-/

namespace ChainFollower.Store

/-! ## Hashes without slashes -/

/-- A text that holds no separator of keys. -/
def Slashless (hash : String) : Prop :=
  '/' ∉ hash.toList

instance (hash : String) : Decidable (Slashless hash) :=
  inferInstanceAs (Decidable (¬_))

/-- No hash in front of a slash begins a hash without slashes. -/
theorem Slashless.not_subsumes {shorter longer : String} (slashless : Slashless longer) :
    ¬Key.Subsumes shorter longer := by
  rintro ⟨rest, rfl⟩
  refine slashless ?_
  rw [String.toList_append, String.toList_append]
  exact List.mem_append_left _ (List.mem_append_right _ List.mem_cons_self)

/-- Two hashes without slashes are told apart from what follows them. -/
theorem Slashless.eq_and_eq {left right leftRest rightRest : String} (slashless : Slashless left)
    (slashlessRight : Slashless right)
    (same : left ++ "/" ++ leftRest = right ++ "/" ++ rightRest) :
    left = right ∧ leftRest = rightRest := by
  rcases Key.eq_or_subsumes same with rfl | subsumes | subsumes
  · exact ⟨rfl, String.append_right_inj _ |>.1 same⟩
  · exact absurd subsumes slashlessRight.not_subsumes
  · exact absurd subsumes slashless.not_subsumes

/-- A block whose transactions have hashes without slashes. -/
def Tidy (block : Block) : Prop :=
  ∀ transaction ∈ block.transactions, Slashless transaction.id.hash

instance (block : Block) : Decidable (Tidy block) :=
  inferInstanceAs (Decidable (∀ transaction ∈ block.transactions, _))

/-- A block has a transaction with a hash. -/
def Carries (block : Block) (hash : String) : Prop :=
  ∃ transaction ∈ block.transactions, transaction.id.hash = hash

variable {block newest : Block} {blocks older : List Block} {database before after : Database}
  {key : Bytes}

theorem mem_transactionKeys : key ∈ Worker.transactionKeys block ↔
    ∃ hash, Carries block hash ∧ (Key.transaction hash block.id.hash).bytes = key := by
  simp only [Worker.transactionKeys, List.mem_map, Carries]
  constructor
  · rintro ⟨transaction, member, rfl⟩
    exact ⟨_, ⟨transaction, member, rfl⟩, rfl⟩
  · rintro ⟨_, ⟨transaction, member, rfl⟩, rfl⟩
    exact ⟨transaction, member, rfl⟩

theorem Tidy.slashless (tidy : Tidy block) {hash : String} (carries : Carries block hash) :
    Slashless hash := by
  obtain ⟨transaction, member, rfl⟩ := carries
  exact tidy transaction member

/-- A key is about transactions of blocks with one hash at most. -/
theorem Tidy.hash_eq {left right : Block} (tidy : Tidy left) (tidyRight : Tidy right)
    (member : key ∈ Worker.transactionKeys left) (memberRight : key ∈ Worker.transactionKeys right) :
    left.id.hash = right.id.hash := by
  obtain ⟨hash, carries, rfl⟩ := mem_transactionKeys.1 member
  obtain ⟨other, carriesOther, same⟩ := mem_transactionKeys.1 memberRight
  exact ((tidyRight.slashless carriesOther).eq_and_eq (tidy.slashless carries)
    (Key.transaction_bytes_inj.1 same)).2.symm

/-! ## Changes -/

/-- Changes with one value give it to all their keys. -/
theorem outcome_of_forall_value {batch : Batch} (value : Option Bytes)
    (alike : ∀ change ∈ batch, change.value? = value) (key : Bytes) (before : Option Bytes) :
    Batch.outcome key before batch = if key ∈ batch.map Change.key then value else before := by
  induction batch generalizing before with
  | nil => rfl
  | cons change rest ih =>
      rw [Batch.outcome_cons, ih fun later member => alike later (List.mem_cons_of_mem _ member),
        alike change List.mem_cons_self, List.map_cons]
      by_cases same : change.key = key
      · simp [same]
      · simp [same, Ne.symm same]

/-- The changes that the transaction index adds to those that store a block. -/
def entering (block : Block) : Batch :=
  (Worker.transactionKeys block).map (.put · (Json.encode block.id))

/-- The changes that it adds to those that remove a block. -/
def leaving (block : Block) : Batch :=
  (Worker.transactionKeys block).map .delete

theorem map_key_entering (block : Block) :
    (entering block).map Change.key = Worker.transactionKeys block := by
  rw [entering, List.map_map]
  exact List.map_id _

theorem map_key_leaving (block : Block) :
    (leaving block).map Change.key = Worker.transactionKeys block := by
  rw [leaving, List.map_map]
  exact List.map_id _

theorem outcome_entering (block : Block) (key : Bytes) (before : Option Bytes) :
    Batch.outcome key before (entering block) =
      if key ∈ Worker.transactionKeys block then some (Json.encode block.id) else before := by
  rw [outcome_of_forall_value (some (Json.encode block.id)), map_key_entering]
  intro change member
  obtain ⟨_, -, rfl⟩ := List.mem_map.1 member
  rfl

theorem outcome_leaving (block : Block) (key : Bytes) (before : Option Bytes) :
    Batch.outcome key before (leaving block) =
      if key ∈ Worker.transactionKeys block then none else before := by
  rw [outcome_of_forall_value none, map_key_leaving]
  intro change member
  obtain ⟨_, -, rfl⟩ := List.mem_map.1 member
  rfl

/-- The keys of the transactions of a block are neither of the chain nor counters. -/
theorem remote_of_map_key {batch : Batch}
    (keys : batch.map Change.key = Worker.transactionKeys block) : Remote batch := by
  intro change member
  have among : change.key ∈ Worker.transactionKeys block :=
    keys ▸ List.mem_map_of_mem member
  obtain ⟨hash, -, same⟩ := mem_transactionKeys.1 among
  rw [← same]
  exact Key.remote_transaction hash _

/-! ## Indexed chains -/

/-- The block of a chain that a key of a transaction leads to. -/
def carrier? (key : Bytes) (blocks : List Block) : Option Block :=
  blocks.find? fun block => key ∈ Worker.transactionKeys block

theorem carrier?_cons : carrier? key (block :: blocks) =
    if key ∈ Worker.transactionKeys block then some block else carrier? key blocks := by
  rw [carrier?, List.find?_cons]
  split <;> simp_all [carrier?]

theorem mem_of_carrier? (found : carrier? key blocks = some block) :
    block ∈ blocks ∧ key ∈ Worker.transactionKeys block :=
  ⟨List.mem_of_find?_eq_some found, by simpa using List.find?_some found⟩

theorem carrier?_eq_none_iff :
    carrier? key blocks = none ↔ ∀ block ∈ blocks, key ∉ Worker.transactionKeys block := by
  simp [carrier?]

/-- A database has the entries of a chain, those of the transactions in it, and counters. -/
structure Indexes (blocks : List Block) (database : Database) : Prop
    extends Holds blocks database where
  tidy : ∀ block ∈ blocks, Tidy block
  transactions : ∀ key, ¬Key.OfChain key → (∀ name, key ≠ (Key.counter name).bytes) →
    database.get? key = (carrier? key blocks).map fun block => Json.encode block.id

namespace Indexes

theorem empty (backend : Backend) : Indexes [] (.empty backend) where
  toHolds := .empty backend
  tidy _ member := nomatch member
  transactions _ _ _ := rfl

/-- No older block has a transaction under a key of the newest. -/
theorem carrier?_eq_none (indexes : Indexes (newest :: older) database)
    (member : key ∈ Worker.transactionKeys newest) : carrier? key older = none := by
  rw [carrier?_eq_none_iff]
  intro lower among found
  have same := (indexes.tidy newest List.mem_cons_self).hash_eq
    (indexes.tidy lower (List.mem_cons_of_mem _ among)) member found
  exact indexes.newest_notMem (same ▸ List.mem_map_of_mem among)

/-- A key of a transaction of a block of the chain leads to the block. -/
theorem carrier?_of_mem (indexes : Indexes blocks database) (member : block ∈ blocks)
    (keyOf : key ∈ Worker.transactionKeys block) : carrier? key blocks = some block := by
  cases isFound : carrier? key blocks with
  | none => exact absurd keyOf (carrier?_eq_none_iff.1 isFound block member)
  | some found =>
      obtain ⟨among, keyOfFound⟩ := mem_of_carrier? isFound
      have sameHash := (indexes.tidy found among).hash_eq (indexes.tidy block member) keyOfFound keyOf
      have byHash := indexes.withHash?_of_mem among
      rwa [sameHash, indexes.withHash?_of_mem member, eq_comm] at byHash

/-- A new child above the head enters the index with its transactions. -/
theorem add (indexes : Indexes blocks database) (durable : Durable block) (settled : ¬Stray block)
    (tidy : Tidy block) (fresh : block.id.hash ∉ blocks.map (·.id.hash))
    (child : ∀ head ∈ blocks.head?, block.parent = head.id)
    (above : ∀ lower ∈ blocks, lower.id.index < block.id.index) :
    Indexes (block :: blocks)
      (database.write (BlockStore.additions block ++ entering block)) where
  toHolds := indexes.toHolds.add durable settled fresh child above
    (remote_of_map_key (map_key_entering block)).aside
  tidy other member := by
    rcases List.mem_cons.1 member with rfl | member
    · exact tidy
    · exact indexes.tidy other member
  transactions key other noCounter := by
    have notHead : key ≠ Key.head.bytes := fun same => other (same ▸ Key.ofChain_head)
    have notIndex : key ≠ (Key.index block.id.index).bytes := fun same =>
      other (same ▸ Key.ofChain_index _)
    have notBlock : key ≠ (Key.block block.id.hash).bytes := fun same =>
      other (same ▸ Key.ofChain_block _)
    rw [Database.get?_write, Batch.outcome_append, outcome_additions, if_neg notHead,
      if_neg notIndex, if_neg notBlock, outcome_entering, carrier?_cons]
    split
    · rfl
    · exact indexes.transactions key other noCounter

/-- The newest block leaves the index with its transactions. -/
theorem remove (indexes : Indexes (newest :: older) database) :
    Indexes older (database.write
      (BlockStore.removals newest.id (older.head?.map Block.id) ++ leaving newest)) where
  toHolds := indexes.toHolds.remove (remote_of_map_key (map_key_leaving newest)).aside
  tidy other member := indexes.tidy other (List.mem_cons_of_mem _ member)
  transactions key other noCounter := by
    have notHead : key ≠ Key.head.bytes := fun same => other (same ▸ Key.ofChain_head)
    have notIndex : key ≠ (Key.index newest.id.index).bytes := fun same =>
      other (same ▸ Key.ofChain_index _)
    have notBlock : key ≠ (Key.block newest.id.hash).bytes := fun same =>
      other (same ▸ Key.ofChain_block _)
    have found := indexes.transactions key other noCounter
    rw [carrier?_cons] at found
    rw [Database.get?_write, Batch.outcome_append, outcome_removals, if_neg notHead,
      if_neg notIndex, if_neg notBlock, outcome_leaving]
    split
    next member => rw [indexes.carrier?_eq_none member, Option.map_none]
    next others => rwa [if_neg others] at found

/-- Counters may change. -/
theorem congr (indexes : Indexes blocks before) (same : SameEntries before after) :
    Indexes blocks after where
  toHolds := indexes.toHolds.congr same.sameChain
  tidy := indexes.tidy
  transactions key other noCounter :=
    (same key noCounter).symm.trans (indexes.transactions key other noCounter)

end Indexes

/-! ## What determines a database -/

/-- Databases of one backend with the same counters. -/
structure SameCounters (before after : Database) : Prop where
  backend : before.backend = after.backend
  counter : ∀ name, before.get? (Key.counter name).bytes = after.get? (Key.counter name).bytes

theorem SameCounters.refl (database : Database) : SameCounters database database :=
  ⟨rfl, fun _ => rfl⟩

theorem SameCounters.symm (same : SameCounters before after) : SameCounters after before :=
  ⟨same.backend.symm, fun name => (same.counter name).symm⟩

theorem SameCounters.trans {last : Database} (same : SameCounters before after)
    (more : SameCounters after last) : SameCounters before last :=
  ⟨same.backend.trans more.backend, fun name => (same.counter name).trans (more.counter name)⟩

theorem sameCounters_write {changes extra : Batch} (remote : Remote extra)
    (ofChain : ∀ change ∈ changes, Key.OfChain change.key) :
    SameCounters database (database.write (changes ++ extra)) :=
  ⟨rfl, fun name => (BlockStore.counter_write remote ofChain name).symm⟩

/-- A chain determines the entries under the keys of chains. -/
theorem Holds.sameChain (holds : Holds blocks before) (holdsAfter : Holds blocks after) :
    SameChain before after := by
  intro key ofChain
  by_cases isHead : key = Key.head.bytes
  · rw [isHead, holds.head, holdsAfter.head]
  by_cases isBlock : ∃ hash, key = (Key.block hash).bytes
  · obtain ⟨hash, rfl⟩ := isBlock
    rw [holds.block, holdsAfter.block]
  by_cases isIndex : ∃ place, key = (Key.index place).bytes
  · obtain ⟨place, rfl⟩ := isIndex
    rw [holds.index, holdsAfter.index]
  rw [holds.others key ofChain isHead (not_exists.1 isBlock) (not_exists.1 isIndex),
    holdsAfter.others key ofChain isHead (not_exists.1 isBlock) (not_exists.1 isIndex)]

/-- An indexed chain and the counters determine all entries. -/
theorem Indexes.eq (indexes : Indexes blocks before) (indexesAfter : Indexes blocks after)
    (same : SameCounters before after) : before = after := by
  have entries : before.entries = after.entries := by
    refine ByteMap.ext fun key => ?_
    change before.get? key = after.get? key
    by_cases ofChain : Key.OfChain key
    · exact (indexes.sameChain indexesAfter.toHolds key ofChain).symm
    by_cases isCounter : ∃ name, key = (Key.counter name).bytes
    · obtain ⟨name, rfl⟩ := isCounter
      exact same.counter name
    rw [indexes.transactions key ofChain (not_exists.1 isCounter),
      indexesAfter.transactions key ofChain (not_exists.1 isCounter)]
  cases before
  cases after
  cases same.backend
  cases entries
  rfl

/-! ## Counters alone -/

/-- A database with nothing but its counters. -/
def Database.countersOnly (database : Database) : Database :=
  { database with
    entries :=
      ⟨database.entries.entries.filter fun entry =>
          Bytes.startsWith entry.1 (Bytes.ofString "counter/"),
        database.entries.ascending.sublist List.filter_sublist⟩ }

theorem Database.get?_countersOnly (database : Database) (key : Bytes) :
    database.countersOnly.get? key =
      if Bytes.startsWith key (Bytes.ofString "counter/") = true then database.get? key
      else none := by
  refine Option.ext fun value => ?_
  have among : database.countersOnly.get? key = some value ↔
      (key, value) ∈ database.entries.entries ∧
        Bytes.startsWith key (Bytes.ofString "counter/") = true := by
    rw [get?, ← ByteMap.mem_entries_iff]
    exact List.mem_filter
  rw [among, ByteMap.mem_entries_iff]
  change database.get? key = some value ∧ _ ↔ _
  split
  next starts => simp [starts]
  next starts => simp [starts]

theorem Database.sameCounters_countersOnly (database : Database) :
    SameCounters database database.countersOnly := by
  refine ⟨rfl, fun name => ?_⟩
  rw [get?_countersOnly, if_pos]
  exact List.isPrefixOf_iff_prefix.2 (List.prefix_append _ _)

/-- Without anything but its counters, a database has the index of the empty chain. -/
theorem Indexes.countersOnly (indexes : Indexes blocks database) :
    Indexes [] database.countersOnly := by
  -- Nothing else begins like a counter, by the first byte.
  have begins {key : Bytes} (starts : Bytes.startsWith key (Bytes.ofString "counter/") = true) :
      key.head? = some 0x63 := Key.head?_of_startsWith starts rfl
  have gone {key : Bytes} (ofChain : Key.OfChain key) : database.countersOnly.get? key = none := by
    rw [Database.get?_countersOnly, if_neg]
    intro starts
    rcases ofChain.head? with head | head <;> rw [begins starts] at head <;> cases head
  have orderly : Orderly [] := .nil
  exact {
    toOrderly := orderly
    head := gone Key.ofChain_head
    block := fun _ => gone (Key.ofChain_block _)
    index := fun _ => gone (Key.ofChain_index _)
    others := fun _ ofChain _ _ _ => gone ofChain
    tidy := fun _ member => nomatch member
    transactions := by
      intro key other noCounter
      rw [Database.get?_countersOnly]
      split
      next starts =>
        have missing : carrier? key blocks = none := by
          rw [carrier?_eq_none_iff]
          intro carrier _ found
          obtain ⟨hash, -, rfl⟩ := mem_transactionKeys.1 found
          have first := begins starts
          cases first
        rw [indexes.transactions key other noCounter, missing]
        rfl
      next => rfl }

end ChainFollower.Store
