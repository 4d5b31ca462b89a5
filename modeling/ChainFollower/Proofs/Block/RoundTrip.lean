import ChainFollower.Proofs.Block.Legible
import ChainFollower.Proofs.Store.Requests
import ChainFollower.Remote.Fetcher

/-!
# Round trips

Every record a chain is described by is read back from its text as it was, and so is whatever is
read from any text at all.  A block that the remote node answers with is therefore read back from
the store as it came.
-/

namespace ChainFollower

open Json
open Json.FreeForm (freeForm)

namespace Json

/-- The values of a type survive their texts: those that are built, as far as the reader has room
for their nesting, and those that are read from some text, which is not written the same way in
general. -/
structure RoundTrips (α : Type) [Form α] [FreeForm α] : Prop where
  built : ∀ value : α, (∀ json ∈ freeForm value, json.Proper) →
    (decode? (encode value) = some value ↔ nesting (encode value) ≤ nestingLimit)
  read : ∀ (text : Bytes) (value : α), decode? text = some value →
    (∀ json ∈ freeForm value, json.Integral) →
    decode? (encode value) = some value ∧
      (decode? (encode value) : Option α).map encode = some (encode value)

theorem roundTrips {α : Type} [Form α] [FreeForm α] [Legible α] [Solid α]
    (small : Legible.least α ≤ nestingLimit) : RoundTrips α where
  built _ := decode?_encode_iff small
  read text value decoded integral := by
    obtain ⟨written, -, read⟩ := Option.bind_eq_some_iff.1 decoded
    have again := decode?_encode_of_read? small (Nat.le_refl _) read (ne_null_of_read? read) integral
    refine ⟨again, ?_⟩
    rw [again, Option.map_some]

end Json

/-! ## Blocks that are fetched -/

namespace Remote

variable {σ α : Type} {decode : Bytes → Option α} {value : α}

/-- A verdict that is a value is what the reply was decoded as. -/
theorem exists_decode_of_verdict {backoff : Backoff} {number : UInt32} {reply : Reply}
    (verdict : backoff.verdict number (reply.outcome decode) = .settled (.ok value)) :
    ∃ bytes, decode bytes = some value := by
  have done : reply.outcome decode = .done value := by
    unfold Backoff.verdict at verdict
    split at verdict
    next result same => cases verdict; exact same
    next => cases verdict
    next => split at verdict <;> cases verdict
  cases reply with
  | failed reason => cases done
  | received status body =>
      unfold Reply.outcome at done
      dsimp only at done
      split at done
      next =>
        split at done
        next decoded =>
          cases done
          obtain ⟨bytes, -, decoded⟩ := Option.bind_eq_some_iff.1 decoded
          exact ⟨bytes, decoded⟩
        next => cases done
      next =>
        unfold failure failing at done
        split at done <;> split at done <;> cases done

/-- A request is settled with what some reply was decoded as. -/
theorem Fetcher.exists_decode_of_attempt {fetcher : Fetcher} {transport : Transport σ}
    {request : Request} {retries : Nat} {number : UInt32} {world after : σ}
    (settled : fetcher.attempt transport decode request retries number world =
      (some (.ok value), after)) : ∃ body, decode body = some value := by
  have decided : ∀ result : Except FetchError α, ∀ {number : UInt32} {reply : Reply},
      fetcher.backoff.verdict number (reply.outcome decode) = .settled result →
      result.mapError SyncError.fetch = .ok value → ∃ body, decode body = some value := by
    intro result number reply verdict same
    cases result with
    | error error => cases same
    | ok found =>
        cases same
        exact exists_decode_of_verdict verdict
  induction retries generalizing number world with
  | zero =>
      unfold attempt at settled
      dsimp only at settled
      split at settled
      next result verdict =>
        exact decided result verdict (Option.some.inj (Prod.mk.inj settled).1)
      next => cases settled
  | succ retries ih =>
      unfold attempt at settled
      dsimp only at settled
      split at settled
      next result verdict =>
        exact decided result verdict (Option.some.inj (Prod.mk.inj settled).1)
      next =>
        split at settled
        next => cases settled
        next => exact ih settled

/-- A block in the answer of a node is written inside of the answer. -/
theorem exists_read?_of_answer {block : Block} {room : Nat} {written : Written}
    (read : Form.read? room written = some (⟨some block⟩ : BlockAnswer)) :
    ∃ inner found, room = inner + 1 ∧ found ≠ .null ∧ Form.read? inner found = some block := by
  change Written.record? ["block"] _ room written = _ at read
  cases room with
  | zero => cases read
  | succ inner =>
      obtain ⟨slots, -, built⟩ := Option.bind_eq_some_iff.1 read
      dsimp only at built
      split at built
      next slot =>
        obtain ⟨answer, found, same⟩ := Option.bind_eq_some_iff.1 built
        cases same
        unfold optional? at found
        split at found
        next => cases found
        next => cases found
        next found' notNull =>
          obtain ⟨_, readBlock, same⟩ := Option.map_eq_some_iff.1 found
          cases same
          exact ⟨inner, found', rfl, notNull, readBlock⟩
      next => cases built

/-- A block that a node answers with can be stored. -/
theorem Fetcher.durable_of_block {fetcher : Fetcher} {transport : Transport σ}
    {network : NetworkId} {query : BlockQuery} {world after : σ} {block : Block}
    (fetched : fetcher.block transport network query world = (some (.ok (some block)), after))
    (integral : ∀ json ∈ freeForm block, json.Integral) : Store.Durable block := by
  obtain ⟨body, decoded⟩ := exists_decode_of_attempt fetched
  obtain ⟨⟨answer⟩, decoded, same⟩ := Option.map_eq_some_iff.1 decoded
  cases same
  obtain ⟨written, -, read⟩ := Option.bind_eq_some_iff.1 decoded
  obtain ⟨inner, found, room, notNull, readBlock⟩ := exists_read?_of_answer read
  have inside : inner ≤ nestingLimit := by
    rw [room]
    exact Nat.le_succ inner
  exact decode?_encode_of_read? (by decide) inside readBlock notNull integral

end Remote

namespace Store

/-- A block that is added is stored, under its index also, and is the newest. -/
theorem Shelf.answer_of_added {shelf : Shelf} {block : Block} (durable : Durable block)
    (tame : shelf.store.Tame) (sound : Sound shelf.session.fault)
    (added : (shelf.serve (.add block)).1 = .ok ()) :
    (shelf.serve (.add block)).2.answer (BlockStore.block block.id) = .ok block ∧
      (shelf.serve (.add block)).2.answer (BlockStore.blockAt block.id.index) = .ok block ∧
      (shelf.serve (.add block)).2.answer BlockStore.headBlock = .ok block := by
  obtain ⟨result, after, accesses, ran, outcome⟩ :=
    run_of_ends (BlockStore.ends_add shelf.store block)
  have served : shelf.serve (.add block) =
      (result, ⟨shelf.store, after, accesses, shelf.session.fault⟩) := ran
  rw [served] at added ⊢
  cases added
  obtain ⟨-, staged, stages, rfl⟩ := outcome
  obtain ⟨extra, aside, appended⟩ := tame.stage_adding block (BlockStore.additions block)
  cases stages.symm.trans appended
  have entry (key : Bytes) (ofChain : Key.OfChain key) :
      (shelf.session.database.write (BlockStore.additions block ++ extra)).get? key =
        if key = Key.head.bytes then some (Json.encode block.id)
        else if key = (Key.index block.id.index).bytes then some (Bytes.ofString block.id.hash)
        else if key = (Key.block block.id.hash).bytes then some (Json.encode block)
        else shelf.session.database.get? key := by
    rw [Database.get?_write, aside.outcome_append ofChain, outcome_additions]
  have head := (entry _ Key.ofChain_head).trans (if_pos rfl)
  have place := entry _ (Key.ofChain_index block.id.index)
  rw [if_neg (by simp), if_pos rfl] at place
  have content := entry _ (Key.ofChain_block block.id.hash)
  rw [if_neg (by simp), if_neg (by simp), if_pos rfl] at content
  have readBlock := BlockStore.yields_block_of_get? durable content
  refine ⟨answer_eq readBlock sound,
    answer_eq (BlockStore.yields_blockAt_of_get? durable content place) sound, ?_⟩
  unfold BlockStore.headBlock
  exact answer_eq
    (.bind (BlockStore.yields_head_of_get? (Json.decode?_encode_blockId _) head) readBlock) sound

end Store

/-! ## The whole data model -/

/-- Every record is read back from its text.  A block that the remote node answers with can be
stored, and once it is added it is read back from the store by its identifier, by its index and
as the newest. -/
theorem records_round_trip :
    (RoundTrips NetworkId ∧ RoundTrips BlockId ∧ RoundTrips BlockQuery ∧
      RoundTrips TransactionId ∧ RoundTrips OperationId ∧ RoundTrips Account ∧
      RoundTrips Currency ∧ RoundTrips Amount ∧ RoundTrips Operation ∧ RoundTrips Transaction ∧
      RoundTrips Block ∧ RoundTrips Peer ∧ RoundTrips NetworkStatus) ∧
    ∀ {σ : Type} (fetcher : Remote.Fetcher) (transport : Remote.Transport σ)
      (network : NetworkId) (query : BlockQuery) (world after : σ) (block : Block),
      fetcher.block transport network query world = (some (.ok (some block)), after) →
      (∀ json ∈ freeForm block, json.Integral) →
      Store.Durable block ∧
      ∀ shelf : Store.Shelf, shelf.store.Tame → Store.Sound shelf.session.fault →
        (shelf.serve (.add block)).1 = .ok () →
        (shelf.serve (.add block)).2.answer (Store.BlockStore.block block.id) = .ok block ∧
          (shelf.serve (.add block)).2.answer (Store.BlockStore.blockAt block.id.index) =
            .ok block ∧
          (shelf.serve (.add block)).2.answer Store.BlockStore.headBlock = .ok block := by
  refine ⟨⟨?_, ?_, ?_, ?_, ?_, ?_, ?_, ?_, ?_, ?_, ?_, ?_, ?_⟩, ?_⟩
  case refine_14 =>
    intro σ fetcher transport network query world after block fetched integral
    have durable := Remote.Fetcher.durable_of_block fetched integral
    exact ⟨durable, fun shelf tame sound => Store.Shelf.answer_of_added durable tame sound⟩
  all_goals exact roundTrips (by decide)

/-- The body of an answer with records as arrays, fields out of order, an escape that is not
needed, blanks, and fields that nobody asks for or that are missing. -/
def looseAnswer : Bytes :=
  Bytes.ofString " \x7b\"extra\":1.5,\"block\":\x7b\"metadata\":\x7b\"k\":[1,-2, -0]\x7d,
    \"timestamp\":5,\"transactions\":[[[\"t\"]]],\"parent_block_identifier\":[7,\"a\"],
    \"block_identifier\":\x7b\"hash\":\"\\u0061\",\"index\":7\x7d\x7d\x7d "

/-- The block in the answer. -/
def looseBlock : Block :=
  ⟨⟨7, "a"⟩, ⟨7, "a"⟩, 5, [⟨⟨"t"⟩, [], none⟩],
    some (.object [("k", .array [.integer 1, .integer (-2), .double (.zero true)])])⟩

/-- A remote node that answers every request in the same way. -/
def answering (body : Bytes) : Remote.Transport Unit :=
  ⟨fun _ world => (.answered 200 body, world), fun _ world => world, fun _ => false⟩

set_option maxRecDepth 2000 in
theorem records_round_trip_looseBlock :
    Json.decode? (Json.encode looseBlock) = some looseBlock ∧
    (Store.emptyShelf.serve (.add looseBlock)).1 = .ok () ∧
    (Store.emptyShelf.serve (.add looseBlock)).2.answer
      (Store.BlockStore.block looseBlock.id) = .ok looseBlock := by
  have fetched : Remote.Fetcher.block ⟨"", .standard⟩ (answering looseAnswer) default .latest () =
      (some (.ok (some looseBlock)), ()) := by rfl
  have integral : ∀ json ∈ freeForm looseBlock, json.Integral := by
    intro json member
    obtain rfl := List.mem_singleton.1 member
    refine .object fun field member => ?_
    obtain rfl := List.mem_singleton.1 member
    refine .array fun item member => ?_
    simp only [List.mem_cons, List.not_mem_nil, or_false] at member
    rcases member with rfl | rfl | rfl
    · exact .integer rfl
    · exact .integer rfl
    · exact .minusZero
  obtain ⟨durable, stored⟩ := records_round_trip.2 _ _ _ _ _ _ looseBlock fetched integral
  have added := (Store.emptyShelf_keeps.serve_add_child durable (by decide) List.not_mem_nil
    (fun _ none => nomatch none) fun _ none => nomatch none).1
  exact ⟨durable, added, (stored Store.emptyShelf (fun _ member => (nomatch member))
    (Store.sound_reliable _) added).1⟩

end ChainFollower
