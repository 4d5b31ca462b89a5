import ChainFollower.Proofs.Store.Entries
import ChainFollower.Proofs.Words

/-!
# The newest blocks

The blocks handed out to start from are those of the store above a bound, oldest
first: the index lookups pass over the indices without a block.
-/

namespace ChainFollower.Store

/-- The blocks of a chain with indices in a range. -/
def blocksWithin (first stop : Int) (blocks : List Block) : List Block :=
  blocks.filter fun block => first ≤ block.id.index.toInt ∧ block.id.index.toInt < stop

/-- The blocks of a chain whose indices are less than `count` below that of the
newest. -/
def newestOf (count : Nat) (blocks : List Block) : List Block :=
  match blocks with
  | [] => []
  | newest :: older => blocksWithin (newest.id.index.toInt - count + 1)
      (newest.id.index.toInt + 1) (newest :: older)

variable {newest : Block} {blocks older : List Block} {database : Database}

theorem blocksWithin_eq_nil {first stop : Int} (empty : stop ≤ first) :
    blocksWithin first stop blocks = [] := by
  rw [blocksWithin, List.filter_eq_nil_iff]
  intro block _ within
  have bounds := of_decide_eq_true within
  omega

theorem blocksWithin_cons {first stop : Int} :
    blocksWithin first stop (newest :: older) =
      if first ≤ newest.id.index.toInt ∧ newest.id.index.toInt < stop then
        newest :: blocksWithin first stop older
      else blocksWithin first stop older := by
  rw [blocksWithin, List.filter_cons]
  simp only [decide_eq_true_eq, blocksWithin]

theorem blocksWithin_eq_self {first stop : Int}
    (within : ∀ block ∈ blocks, first ≤ block.id.index.toInt ∧ block.id.index.toInt < stop) :
    blocksWithin first stop blocks = blocks :=
  List.filter_eq_self.2 fun block member => decide_eq_true (within block member)

/-- Indices below a range have no blocks in it. -/
theorem blocksWithin_eq_nil_of_lt {first stop : Int}
    (below : ∀ block ∈ blocks, block.id.index.toInt < first) :
    blocksWithin first stop blocks = [] := by
  rw [blocksWithin, List.filter_eq_nil_iff]
  intro block member within
  have bounds := of_decide_eq_true within
  have less := below block member
  omega

/-- Natural indices are not below a bound raised to zero. -/
theorem blocksWithin_max_zero (natural : ∀ block ∈ blocks, 0 ≤ block.id.index.toInt)
    (first stop : Int) :
    blocksWithin (max first 0) stop blocks = blocksWithin first stop blocks := by
  unfold blocksWithin
  refine List.filter_congr fun block member => ?_
  have naturalBlock := natural block member
  exact decide_eq_decide.2 (by omega)

/-! ## Falling indices -/

section

variable (falling : blocks.Pairwise fun upper lower => lower.id.index < upper.id.index)
include falling

/-- The block at the first index of a range comes last. -/
theorem blocksWithin_eq_append {first : Int64} {stop : Int} (nonempty : first.toInt < stop) :
    blocksWithin first.toInt stop blocks =
      blocksWithin (first.toInt + 1) stop blocks ++ (atIndex? first blocks).toList := by
  induction blocks with
  | nil => rfl
  | cons newest older ih =>
      have belowNewest : ∀ lower ∈ older, lower.id.index.toInt < newest.id.index.toInt :=
        fun lower member => Int64.lt_iff_toInt_lt.1 ((List.pairwise_cons.1 falling).1 lower member)
      rw [blocksWithin_cons, blocksWithin_cons, atIndex?_cons]
      by_cases same : newest.id.index = first
      · subst same
        rw [if_pos ⟨Int.le_refl _, nonempty⟩, if_neg (by omega), if_pos rfl,
          blocksWithin_eq_nil_of_lt belowNewest,
          blocksWithin_eq_nil_of_lt fun lower member => by
            have less := belowNewest lower member
            omega]
        rfl
      · have differs : newest.id.index.toInt ≠ first.toInt :=
          fun equal => same (Int64.toInt_inj.1 equal)
        rw [if_neg same, ih falling.tail]
        by_cases within : first.toInt ≤ newest.id.index.toInt ∧ newest.id.index.toInt < stop
        · rw [if_pos within, if_pos (by omega), List.cons_append]
        · rw [if_neg within, if_neg (by omega)]

/-- The blocks above a bound are the first ones. -/
theorem blocksWithin_isPrefix {first stop : Int}
    (below : ∀ block ∈ blocks, block.id.index.toInt < stop) :
    blocksWithin first stop blocks <+: blocks := by
  induction blocks with
  | nil => exact List.prefix_rfl
  | cons newest older ih =>
      have belowStop := below newest List.mem_cons_self
      rw [blocksWithin_cons]
      by_cases above : first ≤ newest.id.index.toInt
      · rw [if_pos ⟨above, belowStop⟩, List.prefix_cons_inj]
        exact ih falling.tail fun lower member => below lower (List.mem_cons_of_mem _ member)
      · rw [if_neg (by omega), blocksWithin_eq_nil_of_lt]
        · exact List.nil_prefix
        · intro lower member
          have less := Int64.lt_iff_toInt_lt.1 ((List.pairwise_cons.1 falling).1 lower member)
          omega

/-- The newest block is above all others. -/
theorem le_head_of_mem {newest block : Block} (isNewest : newest ∈ blocks.head?)
    (member : block ∈ blocks) : block.id.index.toInt ≤ newest.id.index.toInt := by
  obtain ⟨older, rfl⟩ := List.head?_eq_some_iff.1 isNewest
  rcases List.mem_cons.1 member with rfl | member
  · exact Int.le_refl _
  · exact Int.le_of_lt
      (Int64.lt_iff_toInt_lt.1 ((List.pairwise_cons.1 falling).1 block member))

theorem newestOf_isPrefix (count : Nat) : newestOf count blocks <+: blocks := by
  cases blocks with
  | nil => exact List.prefix_rfl
  | cons newest older =>
      exact blocksWithin_isPrefix falling fun block member =>
        Int.lt_add_one_of_le (le_head_of_mem falling rfl member)

end

/-! ## Room -/

namespace BlockStore

variable {store : BlockStore}

/-- Room can be asked for exactly if the count is below 2^56. -/
theorem hasRoom_iff : store.HasRoom ↔ store.cacheSize.toNat < 72057594037927936 := by
  unfold HasRoom blockWidth mostBytes
  omega

theorem HasRoom.cacheSize_lt (room : store.HasRoom) :
    store.cacheSize.toNat < 9223372036854775808 := by
  have small := hasRoom_iff.1 room
  omega

theorem yields_makeRoom (room : store.HasRoom) (database : Database) :
    Yields store.makeRoom database (.ok ()) database := by
  rw [makeRoom, if_pos room]
  exact .pure () database

theorem yields_makeRoom_crowded (crowded : ¬store.HasRoom) (database : Database) :
    Yields store.makeRoom database (.error (.panicked "capacity overflow")) database := by
  rw [makeRoom, if_neg crowded]
  exact .throw _ database

end BlockStore

/-! ## Blocks found -/

/-- The head, the indices and the blocks of a database lead to those of a list with falling
indices, whatever its entries say beyond that. -/
structure Lists (blocks : List Block) (database : Database) : Prop where
  falling : blocks.Pairwise fun upper lower => lower.id.index < upper.id.index
  head : (database.get? Key.head.bytes).map Json.decode? =
    (blocks.head?.map Block.id).map some
  index : ∀ place, database.get? (Key.index place).bytes =
    (atIndex? place blocks).map fun block => Bytes.ofString block.id.hash
  block : ∀ block ∈ blocks,
    (database.get? (Key.block block.id.hash).bytes).bind Json.decode? = some block

/-- The entries of a chain do. -/
theorem Holds.lists (holds : Holds blocks database) : Lists blocks database where
  falling := holds.falling
  head := by
    rw [holds.head]
    cases blocks with
    | nil => rfl
    | cons newest older => exact congrArg some (Json.decode?_encode_blockId newest.id)
  index := holds.index
  block block member := by
    rw [holds.block, holds.withHash?_of_mem member]
    exact holds.durable block member

namespace Lists

/-- Where a block that is not found does no harm, the lookup at an index yields what the
list has there. -/
theorem yields_blockAt? (lists : Lists blocks database) (index : Int64)
    {handle : SyncError → Storing (Option Block)}
    (lenient : ∀ text, handle (.storage (.blockNotFound text)) = pure none) :
    Yields (tryCatch (some <$> BlockStore.blockAt index) handle) database
      (.ok (atIndex? index blocks)) database := by
  have place := lists.index index
  cases found : atIndex? index blocks with
  | none =>
      rw [found] at place
      refine .tryCatch_error (.map_error some (BlockStore.yields_blockAt_of_get?_none place)) ?_
      rw [lenient]
      exact .pure none database
  | some block =>
      rw [found] at place
      obtain ⟨member, rfl⟩ := mem_of_atIndex? found
      obtain ⟨bytes, present, decodes⟩ := Option.bind_eq_some_iff.1 (lists.block block member)
      exact .tryCatch (.map some (BlockStore.yields_blockAt_of_get? decodes present place))

/-- The blocks at consecutive indices, found one after another. -/
theorem yields_blocksFrom (lists : Lists blocks database) (first : Int64) (count : Nat)
    (bounded : first.toInt + count ≤ 9223372036854775808) :
    Yields (BlockStore.blocksFrom first count) database
      (.ok (blocksWithin first.toInt (first.toInt + count) blocks).reverse) database := by
  induction count generalizing first with
  | zero =>
      rw [blocksWithin_eq_nil (by omega)]
      exact .pure [] database
  | succ count ih =>
      have rest : Yields (BlockStore.blocksFrom (first + 1) count) database
          (.ok (blocksWithin (first.toInt + 1) (first.toInt + (count + 1 : Nat)) blocks).reverse)
          database := by
        cases count with
        | zero =>
            rw [blocksWithin_eq_nil (by omega)]
            exact .pure [] database
        | succ count =>
            have next : (first + 1).toInt = first.toInt + 1 := Words.toInt_succ (by omega)
            have found := ih (first + 1) (by omega)
            have stop : first.toInt + 1 + (count + 1 : Nat) =
                first.toInt + (count + 1 + 1 : Nat) := by
              omega
            rwa [next, stop] at found
      unfold BlockStore.blocksFrom
      refine .bind (lists.yields_blockAt? first fun _ => rfl) (.bind rest ?_)
      rw [blocksWithin_eq_append lists.falling (by omega), List.reverse_append]
      have single : (atIndex? first blocks).toList.reverse = (atIndex? first blocks).toList := by
        cases atIndex? first blocks <;> rfl
      rw [single]
      exact .pure _ database

/-- The head that is looked for to start from. -/
theorem yields_start (lists : Lists blocks database) :
    Yields (tryCatch BlockStore.head? fun _ => pure none) database
      (.ok (blocks.head?.map Block.id)) database :=
  .tryCatch (BlockStore.yields_head?_of_get? lists.head)

/-- The blocks to start from are those from an index on, oldest first. -/
theorem yields_recent_from (lists : Lists blocks database) {store : BlockStore}
    (room : store.HasRoom) {newest : Block}
    (isNewest : newest ∈ blocks.head?) {oldest : Int64}
    (isOldest : max (newest.id.index - store.cacheSize.toInt64 + 1) 0 = oldest)
    (above : oldest.toInt ≤ newest.id.index.toInt + 1) :
    Yields store.recent database
      (.ok (blocksWithin oldest.toInt (newest.id.index.toInt + 1) blocks).reverse) database := by
  have upper := Words.toInt_lt newest.id.index
  have stop : oldest.toInt + (newest.id.index.toInt - oldest.toInt + 1).toNat =
      newest.id.index.toInt + 1 := by
    omega
  have found := lists.yields_blocksFrom oldest _ (Int.le_trans (Int.le_of_eq stop) (by omega))
  rw [stop] at found
  have start := lists.yields_start
  rw [Option.mem_def.1 isNewest] at start
  unfold BlockStore.recent
  refine .bind start ?_
  dsimp only [Option.map_some]
  rw [isOldest]
  exact .bind (BlockStore.yields_makeRoom room database) (.tryCatch found)

theorem yields_recent_nil (lists : Lists [] database) (store : BlockStore) :
    Yields store.recent database (.ok []) database := by
  unfold BlockStore.recent
  exact .bind lists.yields_start (.pure [] database)

/-- Without room for them, there are none. -/
theorem yields_recent_crowded (lists : Lists blocks database) {store : BlockStore}
    (crowded : ¬store.HasRoom) (nonempty : blocks ≠ []) :
    Yields store.recent database (.error (.panicked "capacity overflow")) database := by
  obtain ⟨newest, older, rfl⟩ := List.exists_cons_of_ne_nil nonempty
  unfold BlockStore.recent
  exact .bind lists.yields_start (.bind_error (BlockStore.yields_makeRoom_crowded crowded database))

/-- They are the newest ones, unless the first index is beyond the last word. -/
theorem yields_recent (lists : Lists blocks database) {store : BlockStore}
    (room : blocks ≠ [] → store.HasRoom)
    (natural : ∀ block ∈ blocks, 0 ≤ block.id.index.toInt)
    (fits : ∀ newest ∈ blocks.head?,
      newest.id.index.toInt - store.cacheSize.toNat < 9223372036854775807) :
    Yields store.recent database (.ok (newestOf store.cacheSize.toNat blocks).reverse)
      database := by
  cases blocks with
  | nil => exact lists.yields_recent_nil store
  | cons newest older =>
      have roomy := room (List.cons_ne_nil newest older)
      have naturalNewest := natural newest List.mem_cons_self
      have fitsNewest := fits newest rfl
      have upper := Words.toInt_lt newest.id.index
      have size := Words.toInt_toInt64 roomy.cacheSize_lt
      have small := roomy.cacheSize_lt
      have difference : (newest.id.index - store.cacheSize.toInt64).toInt =
          newest.id.index.toInt - store.cacheSize.toNat := by
        rw [Words.toInt_sub, size] <;> rw [size] <;> omega
      have oldest : (max (newest.id.index - store.cacheSize.toInt64 + 1) 0).toInt =
          max (newest.id.index.toInt - store.cacheSize.toNat + 1) 0 := by
        rw [Words.toInt_max, Words.toInt_succ (by omega), difference]
        rfl
      have found := lists.yields_recent_from roomy rfl rfl (by omega)
      rwa [oldest, blocksWithin_max_zero natural] at found

end Lists

end ChainFollower.Store
