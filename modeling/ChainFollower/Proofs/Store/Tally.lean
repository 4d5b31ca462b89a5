import ChainFollower.Proofs.Store.Counters
import Mathlib.Data.Finset.Card

/-!
# The number of blocks

`Database.blockCount` is the number of blocks stored under their hashes.  Whatever the database
is like, each addition that is granted adds one and each removal that is granted takes one off,
and neither touches a counter, provided that the workers stay away from both.
-/

namespace ChainFollower.Store

/-! ## Modest workers -/

/-- Changes of entries that are neither of the chain nor counters. -/
def Remote (batch : Batch) : Prop :=
  ∀ change ∈ batch, ¬Key.OfChain change.key ∧ ∀ name, change.key ≠ (Key.counter name).bytes

theorem Remote.aside {batch : Batch} (remote : Remote batch) : Aside batch :=
  fun change member => (remote change member).1

theorem Remote.append {first second : Batch} (remoteFirst : Remote first)
    (remoteSecond : Remote second) : Remote (first ++ second) := by
  intro change member
  rcases List.mem_append.1 member with member | member
  · exact remoteFirst change member
  · exact remoteSecond change member

/-- A worker that refuses a block, or leaves the entries of the chain and the counters alone. -/
structure Worker.Modest (worker : Worker) : Prop where
  adding : ∀ block batch staged, worker.adding block batch = .ok staged →
    ∃ extra, Remote extra ∧ staged = batch ++ extra
  removing : ∀ block batch staged, worker.removing block batch = .ok staged →
    ∃ extra, Remote extra ∧ staged = batch ++ extra

/-- A transaction is neither an entry of the chain nor a counter. -/
theorem Key.remote_transaction (hash carrier : String) :
    ¬OfChain (transaction hash carrier).bytes ∧
      ∀ name, (transaction hash carrier).bytes ≠ (counter name).bytes := by
  refine ⟨not_ofChain_transaction hash carrier, ?_⟩
  intro name same
  have first : some (0x74 : UInt8) = some 0x63 := congrArg List.head? same
  exact absurd first (by decide)

theorem Worker.modest_transactionIndex : transactionIndex.Modest where
  adding block batch staged extended := by
    cases extended
    refine ⟨_, ?_, rfl⟩
    intro change member
    simp only [transactionKeys, List.map_map, List.mem_map] at member
    obtain ⟨transaction, -, rfl⟩ := member
    exact Key.remote_transaction _ _
  removing block batch staged extended := by
    cases extended
    refine ⟨_, ?_, rfl⟩
    intro change member
    simp only [transactionKeys, List.map_map, List.mem_map] at member
    obtain ⟨transaction, -, rfl⟩ := member
    exact Key.remote_transaction _ _

/-- Stages that only append other changes append them together. -/
theorem Worker.stage_remote {stages : List (Batch → Except SyncError Batch)}
    (modest : ∀ step ∈ stages, ∀ batch staged, step batch = .ok staged →
      ∃ extra, Remote extra ∧ staged = batch ++ extra) {batch staged : Batch}
    (ran : stage stages batch = .ok staged) : ∃ extra, Remote extra ∧ staged = batch ++ extra := by
  induction stages generalizing batch with
  | nil =>
      cases ran
      exact ⟨[], fun _ member => (nomatch member), (List.append_nil _).symm⟩
  | cons step rest ih =>
      rw [stage, List.foldlM_cons] at ran
      cases first : step batch with
      | error error =>
          rw [first] at ran
          cases ran
      | ok between =>
          rw [first] at ran
          obtain ⟨extra, remote, rfl⟩ := modest step List.mem_cons_self batch between first
          obtain ⟨more, remoteMore, rfl⟩ :=
            ih (fun later member => modest later (List.mem_cons_of_mem _ member)) ran
          exact ⟨extra ++ more, remote.append remoteMore, List.append_assoc _ _ _⟩

namespace BlockStore

/-- Every worker of the store is modest. -/
def Modest (store : BlockStore) : Prop :=
  ∀ worker ∈ store.workers, worker.Modest

theorem Modest.stage_adding {store : BlockStore} (modest : store.Modest) {block : Block}
    {batch staged : Batch}
    (ran : Worker.stage (store.workers.map (·.adding block)) batch = .ok staged) :
    ∃ extra, Remote extra ∧ staged = batch ++ extra := by
  refine Worker.stage_remote ?_ ran
  intro step member
  obtain ⟨worker, among, rfl⟩ := List.mem_map.1 member
  exact (modest worker among).adding block

theorem Modest.stage_removing {store : BlockStore} (modest : store.Modest) {block : Block}
    {batch staged : Batch}
    (ran : Worker.stage (store.workers.map (·.removing block)) batch = .ok staged) :
    ∃ extra, Remote extra ∧ staged = batch ++ extra := by
  refine Worker.stage_remote ?_ ran
  intro step member
  obtain ⟨worker, among, rfl⟩ := List.mem_map.1 member
  exact (modest worker among).removing block

end BlockStore

/-! ## Stored blocks -/

/-- No key has two entries. -/
theorem nodup_keys_of_ascending {entries : List Entry} (ascending : Ascending entries) :
    (entries.map Prod.fst).Nodup := by
  rw [List.Nodup, List.pairwise_map]
  refine ascending.imp ?_
  rintro first second less same
  rw [same] at less
  exact List.lt_irrefl _ less

namespace Database

/-- The number of blocks stored under their hashes. -/
def blockCount (database : Database) : Nat :=
  (database.entries.entries.filter fun entry =>
    Bytes.startsWith entry.1 Key.blockStart).length

theorem blockCount_le_size (database : Database) : database.blockCount ≤ database.size :=
  List.length_filter_le _ _

/-- The keys under which blocks are stored. -/
def blockKeys (database : Database) : Finset Bytes :=
  ((database.entries.entries.map Prod.fst).filter fun key =>
    Bytes.startsWith key Key.blockStart).toFinset

theorem mem_blockKeys {database : Database} {key : Bytes} :
    key ∈ database.blockKeys ↔
      (database.get? key).isSome = true ∧ Bytes.startsWith key Key.blockStart = true := by
  rw [blockKeys, List.mem_toFinset, List.mem_filter, List.mem_map]
  refine and_congr_left fun _ => ?_
  rw [Option.isSome_iff_exists]
  constructor
  · rintro ⟨⟨_, value⟩, member, rfl⟩
    exact ⟨value, (ByteMap.mem_entries_iff _ _ _).mp member⟩
  · rintro ⟨value, found⟩
    exact ⟨(key, value), (ByteMap.mem_entries_iff _ _ _).mpr found, rfl⟩

theorem card_blockKeys (database : Database) : database.blockKeys.card = database.blockCount := by
  have distinct := nodup_keys_of_ascending database.entries.ascending
  rw [blockKeys, List.toFinset_card_of_nodup (distinct.filter _), List.filter_map,
    List.length_map]
  rfl

end Database

theorem Key.startsWith_block (hash : String) :
    Bytes.startsWith (block hash).bytes blockStart = true := rfl

/-- The keys under which blocks are stored are entries of the chain. -/
theorem Key.ofChain_of_blockStart {key : Bytes}
    (starts : Bytes.startsWith key Key.blockStart = true) : OfChain key := by
  obtain ⟨rest, rfl⟩ := List.isPrefixOf_iff_prefix.mp starts
  exact Or.inr rfl

theorem Key.ne_index_of_blockStart {key : Bytes}
    (starts : Bytes.startsWith key Key.blockStart = true) (place : Int64) :
    key ≠ (index place).bytes := by
  obtain ⟨rest, rfl⟩ := List.isPrefixOf_iff_prefix.mp starts
  simp [bytes, blockStart_eq, indexStart_eq]

theorem Key.ne_head_of_blockStart {key : Bytes}
    (starts : Bytes.startsWith key Key.blockStart = true) : key ≠ head.bytes := by
  obtain ⟨rest, rfl⟩ := List.isPrefixOf_iff_prefix.mp starts
  rw [bytes_head]
  simp [blockStart_eq]

/-! ## Additions and removals -/

namespace BlockStore

variable {fault : Nat → Access → Option String} {store : BlockStore} {before after : Database}
  {block : Block} {id : BlockId}

/-- Changes of the entries of a chain and of entries that are no counters leave counters. -/
theorem counter_write {changes extra : Batch} (remote : Remote extra)
    (ofChain : ∀ change ∈ changes, Key.OfChain change.key) (name : String) :
    (before.write (changes ++ extra)).get? (Key.counter name).bytes =
      before.get? (Key.counter name).bytes := by
  rw [Database.get?_write, Batch.outcome_of_forall_ne]
  intro change member same
  rcases List.mem_append.1 member with member | member
  · exact Key.not_ofChain_counter name (same ▸ ofChain change member)
  · exact (remote change member).2 name same

theorem ofChain_additions (block : Block) :
    ∀ change ∈ additions block, Key.OfChain change.key := by
  intro change member
  simp only [additions, List.mem_cons, List.not_mem_nil, or_false] at member
  rcases member with rfl | rfl | rfl
  · exact Key.ofChain_block _
  · exact Key.ofChain_index _
  · exact Key.ofChain_head

theorem ofChain_removals (id : BlockId) (newHead : Option BlockId) :
    ∀ change ∈ removals id newHead, Key.OfChain change.key := by
  intro change member
  simp only [removals, List.mem_cons, List.not_mem_nil, or_false] at member
  rcases member with rfl | rfl | rfl
  · exact Key.ofChain_block _
  · exact Key.ofChain_index _
  · cases newHead <;> exact Key.ofChain_head

theorem Added.counter (modest : store.Modest) {result : Except SyncError Unit}
    (added : store.Added block before result after) (name : String) :
    after.get? (Key.counter name).bytes = before.get? (Key.counter name).bytes := by
  cases result with
  | error error => rw [show after = before from added]
  | ok =>
      obtain ⟨-, staged, ran, rfl⟩ := added
      obtain ⟨extra, remote, rfl⟩ := modest.stage_adding ran
      exact counter_write remote (ofChain_additions block) name

theorem Removed.counter (modest : store.Modest) {result : Except SyncError Unit}
    (removed : store.Removed id before result after) (name : String) :
    after.get? (Key.counter name).bytes = before.get? (Key.counter name).bytes := by
  cases result with
  | error error => rw [show after = before from removed]
  | ok =>
      obtain ⟨-, block, newHead, staged, ran, rfl⟩ := removed
      obtain ⟨extra, remote, rfl⟩ := modest.stage_removing ran
      exact counter_write remote (ofChain_removals id newHead) name

/-- An addition that is granted stores one block more. -/
theorem Added.blockCount (modest : store.Modest)
    (added : store.Added block before (.ok ()) after) :
    after.blockCount = before.blockCount + 1 := by
  obtain ⟨absent, staged, ran, rfl⟩ := added
  obtain ⟨extra, remote, rfl⟩ := modest.stage_adding ran
  have stored (key : Bytes) (starts : Bytes.startsWith key Key.blockStart = true) :
      (before.write (additions block ++ extra)).get? key =
        if key = (Key.block block.id.hash).bytes then some (Json.encode block)
        else before.get? key := by
    rw [Database.get?_write, remote.aside.outcome_append (Key.ofChain_of_blockStart starts),
      outcome_additions, if_neg (Key.ne_head_of_blockStart starts),
      if_neg (Key.ne_index_of_blockStart starts _)]
  have keys : (before.write (additions block ++ extra)).blockKeys =
      insert (Key.block block.id.hash).bytes before.blockKeys := by
    ext key
    rw [Finset.mem_insert, Database.mem_blockKeys, Database.mem_blockKeys]
    cases starts : Bytes.startsWith key Key.blockStart with
    | true =>
        rw [stored key starts]
        by_cases same : key = (Key.block block.id.hash).bytes
        · simp only [same, if_true, Option.isSome_some, and_self, true_or]
        · simp only [same, if_false, false_or]
    | false =>
        have other : key ≠ (Key.block block.id.hash).bytes := by
          rintro rfl
          exact Bool.noConfusion (starts.symm.trans (Key.startsWith_block block.id.hash))
        simp only [other, Bool.false_eq_true, and_false, or_self]
  have fresh : (Key.block block.id.hash).bytes ∉ before.blockKeys := by
    rw [Database.mem_blockKeys, absent]
    exact fun stored => nomatch stored.1
  rw [← Database.card_blockKeys, keys, Finset.card_insert_of_notMem fresh,
    Database.card_blockKeys]

/-- A removal that is granted stores one block less. -/
theorem Removed.blockCount (modest : store.Modest)
    (removed : store.Removed id before (.ok ()) after) :
    after.blockCount + 1 = before.blockCount := by
  obtain ⟨present, block, newHead, staged, ran, rfl⟩ := removed
  obtain ⟨extra, remote, rfl⟩ := modest.stage_removing ran
  have stored (key : Bytes) (starts : Bytes.startsWith key Key.blockStart = true) :
      (before.write (removals id newHead ++ extra)).get? key =
        if key = (Key.block id.hash).bytes then none else before.get? key := by
    rw [Database.get?_write, remote.aside.outcome_append (Key.ofChain_of_blockStart starts),
      outcome_removals, if_neg (Key.ne_head_of_blockStart starts),
      if_neg (Key.ne_index_of_blockStart starts _)]
  have keys : (before.write (removals id newHead ++ extra)).blockKeys =
      before.blockKeys.erase (Key.block id.hash).bytes := by
    ext key
    rw [Finset.mem_erase, Database.mem_blockKeys, Database.mem_blockKeys]
    cases starts : Bytes.startsWith key Key.blockStart with
    | true =>
        rw [stored key starts]
        by_cases same : key = (Key.block id.hash).bytes
        · simp only [same, if_true, Option.isSome_none, Bool.false_eq_true, false_and, ne_eq,
            not_true_eq_false]
        · simp only [same, if_false, ne_eq, not_false_eq_true, true_and]
    | false => simp only [Bool.false_eq_true, and_false]
  have member : (Key.block id.hash).bytes ∈ before.blockKeys :=
    Database.mem_blockKeys.mpr ⟨present, Key.startsWith_block id.hash⟩
  rw [← Database.card_blockKeys, keys, Finset.card_erase_add_one member,
    Database.card_blockKeys]

/-! ## Rewinding -/

/-- A rewind that has more fuel than there are blocks does not use it up. -/
theorem rewind_add (modest : store.Modest) (start : Int64) {fuel : Nat}
    (enough : before.blockCount < fuel) (more : Nat) (head : BlockId)
    (accesses : Nat) :
    store.rewind start (fuel + more) head ⟨before, accesses, fault⟩ =
      store.rewind start fuel head ⟨before, accesses, fault⟩ := by
  induction fuel generalizing before head accesses with
  | zero => exact absurd enough (Nat.not_lt_zero _)
  | succ fuel ih =>
      rw [Nat.add_right_comm, rewind, rewind]
      by_cases above : start ≤ head.index
      · rw [if_pos above, if_pos above]
        apply Ends.bind_congr
        apply (ends_remove store head).weaken
        rintro result between outcome value rfl accesses
        have fewer : between.blockCount + 1 = before.blockCount := outcome.blockCount modest
        apply Ends.bind_congr
        apply ends_head?.weaken
        rintro result _ rfl found rfl accesses
        cases found with
        | none => rfl
        | some next => exact ih (by omega) next accesses
      · rw [if_neg above, if_neg above]

end BlockStore

end ChainFollower.Store
