import ChainFollower.Proofs.Store.Indexing
import Mathlib.Data.Set.List

/-!
# Looking up transactions

Both backends find the entries whose keys start with given bytes.  With the index of a chain, the
entries found for a transaction are those of the blocks that carry it.
-/

namespace ChainFollower.Store

variable {key start tail : Bytes} {entries : List Entry}

/-! ## Scans -/

/-- Between bytes and a continuation of them there are only their continuations. -/
theorem startsWith_of_between (notBelow : ¬key < start) (below : key < start ++ tail) :
    Bytes.startsWith key start = true := by
  induction start generalizing key with
  | nil => rfl
  | cons first start ih =>
      cases key with
      | nil => exact absurd (List.nil_lt_cons first start) notBelow
      | cons byte key =>
          rw [List.cons_append, List.cons_lt_cons_iff] at below
          rw [List.cons_lt_cons_iff, not_or] at notBelow
          rcases below with less | ⟨rfl, below⟩
          · exact absurd less notBelow.1
          · have rest := ih (fun less => notBelow.2 ⟨rfl, less⟩) below
            rw [Bytes.startsWith, List.isPrefixOf_cons_cons, beq_self_eq_true, Bool.true_and]
            exact rest

/-- Bytes are not below what they start with. -/
theorem not_lt_of_startsWith (starts : Bytes.startsWith key start = true) : ¬key < start := by
  obtain ⟨rest, rfl⟩ := List.isPrefixOf_iff_prefix.1 starts
  induction start with
  | nil => exact List.not_lt_nil _
  | cons first start ih =>
      rw [List.cons_append, List.cons_lt_cons_iff]
      rintro (less | ⟨-, less⟩)
      · exact UInt8.lt_irrefl _ less
      · exact ih (List.isPrefixOf_iff_prefix.2 (List.prefix_append _ _)) less

/-- From the first key that is not below some bytes, the keys that start with them come first. -/
theorem takeWhile_startsWith (ascending : Ascending entries)
    (notBelow : ∀ entry ∈ entries, ¬entry.1 < start) :
    (entries.takeWhile fun entry => Bytes.startsWith entry.1 start) =
      entries.filter fun entry => Bytes.startsWith entry.1 start := by
  induction entries with
  | nil => rfl
  | cons head rest ih =>
      obtain ⟨later, ascendingRest⟩ := List.pairwise_cons.1 ascending
      have kept := ih ascendingRest fun entry member => notBelow entry (List.mem_cons_of_mem _ member)
      by_cases starts : Bytes.startsWith head.1 start = true
      · rw [List.takeWhile_cons, List.filter_cons, if_pos starts, if_pos starts, kept]
      · rw [List.takeWhile_cons, List.filter_cons, if_neg starts, if_neg starts, eq_comm,
          List.filter_eq_nil_iff]
        intro entry member startsLater
        obtain ⟨tail, same⟩ := List.isPrefixOf_iff_prefix.1 startsLater
        have above := later entry member
        rw [← same] at above
        exact starts (startsWith_of_between (notBelow head List.mem_cons_self) above)

/-- A scan finds the entries whose keys start with the given bytes, on either backend. -/
theorem Database.scan_eq (database : Database) (start : Bytes) :
    database.scan start =
      database.entries.entries.filter fun entry => Bytes.startsWith entry.1 start := by
  unfold scan
  cases database.backend with
  | durable => rfl
  | volatile =>
      have found : ∀ entries : List Entry, Ascending entries →
          ((entries.dropWhile fun entry => entry.1 < start).takeWhile fun entry =>
            Bytes.startsWith entry.1 start) =
          entries.filter fun entry => Bytes.startsWith entry.1 start := by
        intro entries ascending
        induction entries with
        | nil => rfl
        | cons head rest ih =>
            obtain ⟨later, ascendingRest⟩ := List.pairwise_cons.1 ascending
            by_cases less : head.1 < start
            · have other : ¬Bytes.startsWith head.1 start = true := fun starts =>
                not_lt_of_startsWith starts less
              rw [List.dropWhile_cons, if_pos (decide_eq_true less), List.filter_cons, if_neg other]
              exact ih ascendingRest
            · rw [List.dropWhile_cons, if_neg fun lower => less (of_decide_eq_true lower)]
              refine takeWhile_startsWith ascending fun entry member => ?_
              rcases List.mem_cons.1 member with rfl | member
              · exact less
              · exact fun lower => less (List.lt_trans (later entry member) lower)
      exact found _ database.entries.ascending

theorem Database.mem_scan {database : Database} {key value : Bytes} :
    (key, value) ∈ database.scan start ↔
      database.get? key = some value ∧ Bytes.startsWith key start = true := by
  rw [scan_eq, List.mem_filter, ByteMap.mem_entries_iff]
  rfl

/-- No key is found twice. -/
theorem Database.nodup_scan (database : Database) (start : Bytes) :
    ((database.scan start).map Prod.fst).Nodup := by
  rw [scan_eq]
  exact nodup_keys_of_ascending (database.entries.ascending.filter _)

/-! ## Finding transactions -/

theorem Yields.scan (database : Database) (start : Bytes) :
    Yields (Session.scan start) database (.ok (database.scan start)) database :=
  Yields.access id _ database

/-- The entry of a transaction in a block. -/
def entryIn (hash : String) (id : BlockId) : Entry :=
  ((Key.transaction hash id.hash).bytes, Json.encode id)

theorem entryIn_injective (hash : String) : Function.Injective (entryIn hash) := by
  intro left right same
  have read := Json.decode?_encode_blockId left
  rw [show Json.encode left = Json.encode right from congrArg Prod.snd same,
    Json.decode?_encode_blockId] at read
  exact (Option.some.inj read).symm

/-- What is read from the entries of a transaction are the blocks it is in. -/
theorem Yields.mapM_decodeStored (hash : String) (ids : List BlockId) (database : Database) :
    Yields ((ids.map (entryIn hash)).mapM fun entry => (Store.decodeStored entry.2 : Storing BlockId))
      database (.ok ids) database := by
  induction ids with
  | nil => exact .pure [] database
  | cons id ids ih =>
      rw [List.map_cons, List.mapM_cons]
      refine .bind (.decodeStored (Json.decode?_encode_blockId id) database) ?_
      exact .bind ih (.pure _ database)

variable {blocks : List Block} {database : Database} {hash : String}

namespace Indexes

/-- The entries found for a transaction are those of the blocks that carry it. -/
theorem mem_scan_iff (indexes : Indexes blocks database) (slashless : Slashless hash)
    (entry : Entry) : entry ∈ database.scan (Key.transactionStart hash) ↔
      ∃ block ∈ blocks, Carries block hash ∧ entry = entryIn hash block.id := by
  obtain ⟨key, value⟩ := entry
  rw [Database.mem_scan]
  constructor
  · rintro ⟨found, starts⟩
    have first : key.head? = some 0x74 := Key.head?_of_startsWith starts rfl
    have notOfChain : ¬Key.OfChain key := by
      intro ofChain
      rcases ofChain.head? with head | head <;> rw [first] at head <;> cases head
    have notCounter (name : String) : key ≠ (Key.counter name).bytes := by
      rintro rfl
      cases first
    rw [indexes.transactions key notOfChain notCounter] at found
    obtain ⟨block, isCarrier, rfl⟩ := Option.map_eq_some_iff.1 found
    obtain ⟨member, keyOf⟩ := mem_of_carrier? isCarrier
    obtain ⟨other, carries, rfl⟩ := mem_transactionKeys.1 keyOf
    obtain ⟨rest, joined⟩ := Key.startsWith_transaction.1 starts
    obtain ⟨rfl, -⟩ :=
      ((indexes.tidy block member).slashless carries).eq_and_eq slashless joined
    exact ⟨block, member, carries, rfl⟩
  · rintro ⟨block, member, carries, same⟩
    cases same
    have keyOf : (Key.transaction hash block.id.hash).bytes ∈ Worker.transactionKeys block :=
      mem_transactionKeys.2 ⟨hash, carries, rfl⟩
    have remote := Key.remote_transaction hash block.id.hash
    refine ⟨?_, Key.startsWith_transaction.2 ⟨block.id.hash, rfl⟩⟩
    rw [indexes.transactions _ remote.1 remote.2, indexes.carrier?_of_mem member keyOf]
    rfl

/-- A lookup finds the blocks that carry a transaction, each of them once. -/
theorem yields_findTransaction (indexes : Indexes blocks database) (slashless : Slashless hash) :
    ∃ found : List BlockId, found.Nodup ∧
      (∀ id, id ∈ found ↔ ∃ block ∈ blocks, Carries block hash ∧ block.id = id) ∧
      Yields (findTransaction hash) database (.ok found) database := by
  have scanned := indexes.mem_scan_iff slashless
  obtain ⟨found, same⟩ : database.scan (Key.transactionStart hash) ∈
      Set.range (List.map (entryIn hash)) := by
    rw [Set.range_list_map]
    intro entry member
    obtain ⟨block, -, -, rfl⟩ := (scanned entry).1 member
    exact ⟨block.id, rfl⟩
  refine ⟨found, ?_, fun id => ?_, ?_⟩
  · have distinct := database.nodup_scan (Key.transactionStart hash)
    rw [← same, List.map_map] at distinct
    exact List.Nodup.of_map _ distinct
  · rw [← List.mem_map_of_injective (entryIn_injective hash), same, scanned]
    simp only [(entryIn_injective hash).eq_iff, @eq_comm _ id]
  · refine .bind (.scan database _) ?_
    rw [← same]
    exact .mapM_decodeStored hash found database

end Indexes

end ChainFollower.Store
