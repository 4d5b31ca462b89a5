import ChainFollower.Proofs.Json.Scalars
import ChainFollower.Proofs.Store.Keys

/-!
# Keys that run together

Keys tell apart what they are about, except that the hash of a transaction and the hash of its
block are joined by a slash, which either of them may hold itself.  The keys of two transactions
run together exactly where one hash, followed by a slash, begins another.
-/

namespace ChainFollower

/-- The bytes of one text begin those of another where the texts do. -/
theorem Bytes.startsWith_ofString {whole start : String} :
    startsWith (ofString whole) (ofString start) = true ↔ ∃ rest, whole = start ++ rest := by
  rw [startsWith, List.isPrefixOf_iff_prefix]
  constructor
  · rintro ⟨tail, same⟩
    have encoded (text : String) : ofString text = text.toList.flatMap String.utf8EncodeChar := by
      rw [← ofString_ofList, String.ofList_toList]
    have begins : start.toList <+: whole.toList := by
      apply List.isPrefix_of_utf8Encode_append_eq_utf8Encode tail.toByteArray
      rw [List.utf8Encode, List.utf8Encode, ← encoded, ← encoded, ← same,
        List.toByteArray_append]
    obtain ⟨characters, append⟩ := begins
    refine ⟨String.ofList characters, ?_⟩
    rw [← String.toList_inj, ← append, String.toList_append, String.toList_ofList]
  · rintro ⟨rest, rfl⟩
    rw [ofString_append]
    exact List.prefix_append _ _

namespace Store

namespace Key

/-! ## Kinds of keys -/

/-- The first byte, and the seventh where the first begins the key of a block or an index. -/
def mark (key : Bytes) : Option UInt8 × Option UInt8 :=
  (key.head?, if key.head? = some 0x62 then key[6]? else none)

/-- Each kind of key has a mark of its own. -/
theorem mark_bytes (key : Key) :
    mark key.bytes =
      match key with
      | .block _ => (some 0x62, some 0x68)
      | .index _ => (some 0x62, some 0x69)
      | .transaction _ _ => (some 0x74, none)
      | .counter _ => (some 0x63, none)
      | .head => (some 0x68, none) := by
  cases key <;> rfl

theorem counter_bytes_inj {left right : String} :
    (counter left).bytes = (counter right).bytes ↔ left = right := by
  constructor
  · intro same
    exact Bytes.ofString_injective (List.append_cancel_left same)
  · rintro rfl
    rfl

/-! ## Transactions -/

/-- A key of a transaction is the text of both hashes with a slash between them. -/
theorem bytes_transaction (hash carrier : String) :
    (transaction hash carrier).bytes =
      Bytes.ofString "tx/" ++ Bytes.ofString (hash ++ "/" ++ carrier) := by
  rw [bytes, transactionStart, Bytes.ofString_append, Bytes.ofString_append, List.append_assoc,
    List.append_assoc, List.append_assoc]

theorem transaction_bytes_inj {hash carrier other otherCarrier : String} :
    (transaction hash carrier).bytes = (transaction other otherCarrier).bytes ↔
      hash ++ "/" ++ carrier = other ++ "/" ++ otherCarrier := by
  rw [bytes_transaction, bytes_transaction, List.append_cancel_left_eq]
  exact ⟨Bytes.ofString_injective, congrArg Bytes.ofString⟩

theorem startsWith_transaction {hash other carrier : String} :
    Bytes.startsWith (transaction other carrier).bytes (transactionStart hash) = true ↔
      ∃ rest, other ++ "/" ++ carrier = hash ++ "/" ++ rest := by
  rw [bytes_transaction, transactionStart, ← Bytes.ofString_append, ← Bytes.ofString_append,
    ← Bytes.ofString_append, Bytes.startsWith_ofString]
  refine exists_congr fun rest => ?_
  simp only [String.append_assoc, String.append_right_inj]

/-- A hash, followed by a slash, begins another hash. -/
def Subsumes (shorter longer : String) : Prop :=
  ∃ rest, longer = shorter ++ "/" ++ rest

theorem Subsumes.ne {shorter longer : String} (subsumes : Subsumes shorter longer) :
    shorter ≠ longer := by
  rintro rfl
  obtain ⟨rest, same⟩ := subsumes
  have lengths := congrArg String.length same
  simp only [String.length_append] at lengths
  have slash : "/".length = 1 := rfl
  omega

theorem subsumes_of_toList {shorter longer : String} {rest : List Char}
    (same : longer.toList = shorter.toList ++ '/' :: rest) : Subsumes shorter longer := by
  refine ⟨String.ofList rest, String.toList_inj.1 ?_⟩
  simp only [same, String.toList_append, String.toList_ofList, List.append_assoc]
  rfl

/-- Where lists that are joined by a separator are the same, so are the parts before it, unless
one of these goes on with the separator where the other ends. -/
theorem eq_or_separator {separator : Char} {left right leftRest rightRest : List Char}
    (same : left ++ separator :: leftRest = right ++ separator :: rightRest) :
    left = right ∨ (∃ tail, right = left ++ separator :: tail) ∨
      ∃ tail, left = right ++ separator :: tail := by
  rcases List.append_eq_append_iff.1 same with ⟨tail, longer, rest⟩ | ⟨tail, longer, rest⟩
  · cases tail with
    | nil => exact Or.inl (by rw [longer, List.append_nil])
    | cons first tail =>
        obtain ⟨rfl, -⟩ := List.cons.inj rest
        exact Or.inr (Or.inl ⟨tail, longer⟩)
  · cases tail with
    | nil => exact Or.inl (by rw [longer, List.append_nil])
    | cons first tail =>
        obtain ⟨rfl, -⟩ := List.cons.inj rest
        exact Or.inr (Or.inr ⟨tail, longer⟩)

/-- Hashes that are followed by a slash in the same text are the same, unless one of them
subsumes the other. -/
theorem eq_or_subsumes {left right leftRest rightRest : String}
    (same : left ++ "/" ++ leftRest = right ++ "/" ++ rightRest) :
    left = right ∨ Subsumes left right ∨ Subsumes right left := by
  have characters (text rest : String) :
      (text ++ "/" ++ rest).toList = text.toList ++ '/' :: rest.toList := by
    rw [String.toList_append, String.toList_append, List.append_assoc]
    rfl
  have joined := congrArg String.toList same
  rw [characters, characters] at joined
  rcases eq_or_separator joined with equal | ⟨tail, longer⟩ | ⟨tail, longer⟩
  · exact Or.inl (String.toList_inj.1 equal)
  · exact Or.inr (Or.inl (subsumes_of_toList longer))
  · exact Or.inr (Or.inr (subsumes_of_toList longer))

/-- Two keys are the same, or belong to transactions whose hashes run together. -/
theorem eq_or_transactions {left right : Key} (same : left.bytes = right.bytes) :
    left = right ∨ ∃ hash carrier other otherCarrier,
      left = transaction hash carrier ∧ right = transaction other otherCarrier ∧
        hash ++ "/" ++ carrier = other ++ "/" ++ otherCarrier := by
  have marks := congrArg mark same
  rw [mark_bytes, mark_bytes] at marks
  cases left with
  | block hash =>
      cases right with
      | block other => exact Or.inl (congrArg block (block_bytes_inj.1 same))
      | _ => simp at marks
  | index place =>
      cases right with
      | index other => exact Or.inl (congrArg index (index_bytes_inj.1 same))
      | _ => simp at marks
  | transaction hash carrier =>
      cases right with
      | transaction other otherCarrier =>
          exact Or.inr ⟨_, _, _, _, rfl, rfl, transaction_bytes_inj.1 same⟩
      | _ => simp at marks
  | counter name =>
      cases right with
      | counter other => exact Or.inl (congrArg counter (counter_bytes_inj.1 same))
      | _ => simp at marks
  | head =>
      cases right with
      | head => exact Or.inl rfl
      | _ => simp at marks

/-- A key whose transaction, if it is about one, has a hash of some kind. -/
def Uses (admits : String → Prop) : Key → Prop
  | .transaction hash _ => admits hash
  | _ => True

end Key

/-- Keys are unambiguous, and the bytes that a transaction's keys start with begin no other
transaction's, exactly if no hash of a transaction, followed by a slash, begins another. -/
theorem keys_unambiguous_iff (admits : String → Prop) :
    ((∀ left right : Key, left.Uses admits → right.Uses admits → left.bytes = right.bytes →
        left = right) ∧
      ∀ hash other carrier, admits hash → admits other →
        Bytes.startsWith (Key.transaction other carrier).bytes (Key.transactionStart hash) = true →
        hash = other) ↔
      ∀ shorter longer, admits shorter → admits longer → ¬Key.Subsumes shorter longer := by
  constructor
  · rintro ⟨-, starts⟩ shorter longer admitted admittedLonger subsumes
    have different := subsumes.ne
    obtain ⟨rest, rfl⟩ := subsumes
    refine different (starts shorter _ "" admitted admittedLonger ?_)
    exact Key.startsWith_transaction.2 ⟨rest ++ "/" ++ "", by simp only [String.append_assoc]⟩
  · intro apart
    have same {hash carrier other otherCarrier : String} (admitted : admits hash)
        (admittedOther : admits other)
        (equal : hash ++ "/" ++ carrier = other ++ "/" ++ otherCarrier) : hash = other := by
      rcases Key.eq_or_subsumes equal with same | subsumes | subsumes
      · exact same
      · exact absurd subsumes (apart _ _ admitted admittedOther)
      · exact absurd subsumes (apart _ _ admittedOther admitted)
    constructor
    · intro left right admitted admittedRight equal
      rcases Key.eq_or_transactions equal with equal | ⟨hash, carrier, other, _, rfl, rfl, joined⟩
      · exact equal
      · obtain rfl := same admitted admittedRight joined
        rw [String.append_right_inj] at joined
        rw [joined]
    · intro hash other carrier admitted admittedOther starts
      obtain ⟨rest, joined⟩ := Key.startsWith_transaction.1 starts
      exact (same admittedOther admitted joined).symm

/-- The transaction `a/b` in a block `c` has the key of the transaction `a` in a block `b/c`, and
a key with the bytes that those of the transaction `a` start with. -/
theorem transaction_keys_collide :
    (Key.transaction "a/b" "c").bytes = (Key.transaction "a" "b/c").bytes ∧
      Key.transaction "a/b" "c" ≠ Key.transaction "a" "b/c" ∧
      Bytes.startsWith (Key.transaction "a/b" "c").bytes (Key.transactionStart "a") = true := by
  decide

end Store

end ChainFollower
