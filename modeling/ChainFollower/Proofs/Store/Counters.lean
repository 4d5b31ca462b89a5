import ChainFollower.Proofs.Store.Endings
import ChainFollower.Proofs.Store.Entries
import ChainFollower.Store.Counter

/-!
# Counters beside a chain

Whether the update of a counter succeeds or fails, nothing but the entry of the counter
changes.  Where accesses of counters do not fail and a counter can be read, an update adds to
it exactly, as long as the sum fits in a word.
-/

namespace ChainFollower.Store

variable {fault : Nat → Access → Option String} {before after : Database}

/-- Databases with the same entries apart from counters. -/
def SameEntries (left right : Database) : Prop :=
  ∀ key, (∀ name, key ≠ (Key.counter name).bytes) → left.get? key = right.get? key

theorem SameEntries.symm {left right : Database} (same : SameEntries left right) :
    SameEntries right left :=
  fun key other => (same key other).symm

theorem SameEntries.trans {left right last : Database} (same : SameEntries left right)
    (more : SameEntries right last) : SameEntries left last :=
  fun key other => (same key other).trans (more key other)

theorem sameEntries_insert_counter (database : Database) (name : String) (value : Bytes) :
    SameEntries database (database.insert (Key.counter name).bytes value) := by
  intro key other
  rw [Database.get?_insert, if_neg (other name)]

/-- Entries of chains are no counters. -/
theorem SameEntries.sameChain (same : SameEntries before after) : SameChain before after :=
  fun key ofChain => (same key ofChain.ne_counter).symm

namespace Counter

theorem ends_get (name : String) : Ends fault (get name) before (Untouched before) := by
  unfold get
  apply Ends.bind
  apply Ends.get?
  · exact fun _ => rfl
  · cases before.get? (Key.counter name).bytes with
    | none => exact .pure rfl
    | some bytes =>
        dsimp only
        split
        · exact .pure rfl
        · exact .throw rfl

/-- The update of a counter changes nothing, or puts a value under its key. -/
theorem ends_update (name : String) (delta : Int64) :
    Ends fault (update name delta) before fun _ after =>
      after = before ∨ ∃ value, after = before.insert (Key.counter name).bytes (encode value) := by
  unfold update
  apply Ends.bind
  apply (ends_get name).weaken
  rintro result before rfl
  cases result with
  | error error => exact Or.inl rfl
  | ok value =>
      apply Ends.bind
      apply Ends.access
      · exact fun _ => Or.inl rfl
      · exact .pure (Or.inr ⟨_, rfl⟩)

/-- Whether it fails or not, the update of a counter leaves all other entries alone. -/
theorem sameEntries_update (name : String) (delta : Int64) :
    Ends fault (update name delta) before fun _ after => SameEntries before after := by
  apply (ends_update name delta).weaken
  rintro result after (rfl | ⟨value, rfl⟩)
  · exact fun _ _ => rfl
  · exact sameEntries_insert_counter before name _

theorem sameChain_update (name : String) (delta : Int64) :
    Ends fault (update name delta) before fun _ after => SameChain before after :=
  (sameEntries_update name delta).weaken fun _ _ => SameEntries.sameChain

/-! ## What counters read -/

/-- What a counter reads, unless what is stored is no number. -/
def value? (database : Database) (name : String) : Option Int64 :=
  match database.get? (Key.counter name).bytes with
  | none => some 0
  | some bytes => decode? bytes

/-- A counter can be read, and is a number. -/
def Reads (database : Database) (name : String) (value : Int) : Prop :=
  ∃ word, value? database name = some word ∧ word.toInt = value

/-- Neither a growth nor the value after it is past the greatest word. -/
def Fits (value : Int) (growth : Nat) : Prop :=
  growth < 9223372036854775808 ∧ value + growth < 9223372036854775808

/-- What a counter reads depends on its entry alone. -/
theorem Reads.congr {name : String} {value : Int} (reads : Reads before name value)
    (same : after.get? (Key.counter name).bytes = before.get? (Key.counter name).bytes) :
    Reads after name value := by
  unfold Reads value?
  rw [same]
  exact reads

/-- How much of what is added to one counter is added to another. -/
def share (name counter : String) (growth : Nat) : Nat :=
  if name = counter then growth else 0

theorem decode?_encode (value : Int64) : decode? (encode value) = some value := by
  have bound : value.toUInt64.toNat < 256 ^ 8 := value.toUInt64.toNat_lt
  rw [decode?, encode, if_pos (Bytes.length_bigEndian _ _), Bytes.toNat_bigEndian,
    Nat.mod_eq_of_lt bound, UInt64.ofNat_toNat, Int64.toInt64_toUInt64]

theorem value?_insert (database : Database) (name other : String) (value : Int64) :
    value? (database.insert (Key.counter name).bytes (encode value)) other =
      if name = other then some value else value? database other := by
  have keys : (Key.counter other).bytes = (Key.counter name).bytes ↔ name = other := by
    constructor
    · intro same
      exact (Bytes.ofString_injective (List.append_cancel_left same)).symm
    · rintro rfl
      rfl
  by_cases same : name = other
  · simp only [value?, Database.get?_insert, same, if_true, decode?_encode]
  · simp only [value?, Database.get?_insert, keys, same, if_false]

/-- A sum within bounds is not clamped. -/
theorem toInt_add {left : Int64} {growth : Nat} (fits : Fits left.toInt growth) :
    (Saturating.add left (Int64.ofNat growth)).toInt = left.toInt + growth := by
  obtain ⟨small, bounded⟩ := fits
  have lower := Words.le_toInt left
  have word : (Int64.ofNat growth).toInt = growth := Int64.toInt_ofNat_of_lt small
  rw [Saturating.toInt_add, word]
  omega

/-- The value of a counter that can be read is found. -/
theorem ends_get_of_value? (answers : ∀ number request, Access.OfCounter request →
      fault number request = none) {name : String} {value : Int64}
    (stored : value? before name = some value) :
    Ends fault (get name) before fun result after => after = before ∧ result = .ok value := by
  unfold get
  apply Ends.bind
  apply Ends.access_of_forall
  · exact fun number => answers number _ ⟨name, rfl⟩
  · unfold value? at stored
    dsimp only
    cases found : before.get? (Key.counter name).bytes with
    | none =>
        rw [found] at stored
        cases stored
        exact .pure ⟨rfl, rfl⟩
    | some bytes =>
        rw [found] at stored
        dsimp only at stored ⊢
        rw [stored]
        exact .pure ⟨rfl, rfl⟩

/-- The update of a counter that can be read returns the sum and stores it. -/
theorem ends_update_of_value? (answers : ∀ number request, Access.OfCounter request →
      fault number request = none) {name : String} {value : Int64}
    (stored : value? before name = some value) (delta : Int64) :
    Ends fault (update name delta) before fun result after =>
      result = .ok (Saturating.add value delta) ∧
        after = before.insert (Key.counter name).bytes (encode (Saturating.add value delta)) := by
  unfold update
  apply Ends.bind
  apply (ends_get_of_value? answers stored).weaken
  rintro _ before ⟨rfl, rfl⟩
  apply Ends.bind
  apply Ends.access_of_forall
  · exact fun number => answers number _ ⟨name, rfl⟩
  · exact .pure ⟨rfl, rfl⟩

/-- The update of a counter whose entry is no eight bytes fails, and changes nothing. -/
theorem ends_update_of_length_ne (answers : ∀ number request, Access.OfCounter request →
      fault number request = none) {name : String} {bytes : Bytes}
    (stored : before.get? (Key.counter name).bytes = some bytes) (odd : bytes.length ≠ 8)
    (delta : Int64) :
    Ends fault (update name delta) before fun result after => after = before ∧
      result = .error (.storage (.corruption
        ("counter " ++ name ++ " has " ++ toString bytes.length ++ " bytes"))) := by
  unfold update
  apply Ends.bind
  unfold get
  apply Ends.bind
  apply Ends.access_of_forall
  · exact fun number => answers number _ ⟨name, rfl⟩
  · rw [stored]
    dsimp only
    rw [decode?, if_neg odd]
    exact .throw ⟨rfl, rfl⟩

/-- An update adds to its counter, and leaves the others as they are. -/
theorem reads_update (answers : ∀ number request, Access.OfCounter request →
      fault number request = none) {name counter : String} {value : Int} {growth : Nat}
    (reads : Reads before counter value) (fits : Fits value (share name counter growth)) :
    Ends fault (update name (Int64.ofNat growth)) before fun _ after =>
      Reads after counter (value + share name counter growth) := by
  obtain ⟨word, stored, rfl⟩ := reads
  by_cases same : name = counter
  · subst same
    rw [share, if_pos rfl] at fits ⊢
    apply (ends_update_of_value? answers stored _).weaken
    rintro _ _ ⟨-, rfl⟩
    refine ⟨Saturating.add word (Int64.ofNat growth), ?_, toInt_add fits⟩
    rw [value?_insert, if_pos rfl]
  · rw [share, if_neg same]
    apply (ends_update name _).weaken
    intro result after outcome
    refine ⟨word, ?_, (Int.add_zero _).symm⟩
    rcases outcome with rfl | ⟨value, rfl⟩
    · exact stored
    · rw [value?_insert, if_neg same]
      exact stored

end Counter

end ChainFollower.Store
