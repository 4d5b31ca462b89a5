import ChainFollower.Bytes

/-!
# Ordered byte maps

A finite map from byte strings to byte strings, kept in ascending order of its
keys.  The view of a map is `get?`: two maps with the same view are equal, and
each operation has one equation through it.
-/

namespace ChainFollower

/-- An entry of a map: its key and its value. -/
abbrev Entry := Bytes × Bytes

/-- The value under a key in a list of entries. -/
def entryValue? (key : Bytes) : List Entry → Option Bytes
  | [] => none
  | (other, value) :: rest => if key = other then some value else entryValue? key rest

/-- Puts a value under a key, in front of the first greater key. -/
def putEntry (key value : Bytes) : List Entry → List Entry
  | [] => [(key, value)]
  | (other, kept) :: rest =>
      if key < other then (key, value) :: (other, kept) :: rest
      else if key = other then (key, value) :: rest
      else (other, kept) :: putEntry key value rest

/-- Leaves out the entries under a key. -/
def dropEntry (key : Bytes) (entries : List Entry) : List Entry :=
  entries.filter fun entry => !(entry.1 == key)

/-- Entries in strictly ascending order of their keys. -/
def Ascending (entries : List Entry) : Prop :=
  entries.Pairwise fun first second => first.1 < second.1

theorem mem_putEntry {key value : Bytes} {entries : List Entry} {entry : Entry}
    (member : entry ∈ putEntry key value entries) :
    entry = (key, value) ∨ entry ∈ entries := by
  induction entries with
  | nil => simpa [putEntry] using member
  | cons head rest ih =>
      simp only [putEntry] at member
      split at member
      · simpa using member
      · split at member
        · simp only [List.mem_cons] at member ⊢
          exact member.imp_right Or.inr
        · simp only [List.mem_cons] at member ⊢
          rcases member with rfl | member
          · exact Or.inr (Or.inl rfl)
          · exact (ih member).imp_right Or.inr

theorem Ascending.put {entries : List Entry} (ascending : Ascending entries)
    (key value : Bytes) : Ascending (putEntry key value entries) := by
  induction entries with
  | nil => simp [putEntry, Ascending]
  | cons head rest ih =>
      obtain ⟨below, restAscending⟩ := List.pairwise_cons.1 ascending
      simp only [putEntry]
      split
      next less =>
        refine List.pairwise_cons.2 ⟨fun entry member => ?_, ascending⟩
        rcases List.mem_cons.1 member with rfl | member
        · exact less
        · exact List.lt_trans less (below entry member)
      next notLess =>
        split
        next same =>
          refine List.pairwise_cons.2 ⟨fun entry member => ?_, restAscending⟩
          exact same ▸ below entry member
        next different =>
          refine List.pairwise_cons.2 ⟨fun entry member => ?_, ih restAscending⟩
          rcases mem_putEntry member with rfl | member
          · rcases Std.lt_trichotomy key head.1 with less | same | greater
            · exact absurd less notLess
            · exact absurd same different
            · exact greater
          · exact below entry member

theorem Ascending.drop {entries : List Entry} (ascending : Ascending entries)
    (key : Bytes) : Ascending (dropEntry key entries) :=
  ascending.sublist List.filter_sublist

/-- A finite map between byte strings. -/
structure ByteMap where
  entries : List Entry
  ascending : Ascending entries

namespace ByteMap

/-- The map without entries. -/
def empty : ByteMap := ⟨[], .nil⟩

instance : Inhabited ByteMap := ⟨empty⟩

/-- The value under a key. -/
def get? (map : ByteMap) (key : Bytes) : Option Bytes :=
  entryValue? key map.entries

/-- The map with a value under a key, in place of any earlier one. -/
def insert (map : ByteMap) (key value : Bytes) : ByteMap :=
  ⟨putEntry key value map.entries, map.ascending.put key value⟩

/-- The map without a key. -/
def erase (map : ByteMap) (key : Bytes) : ByteMap :=
  ⟨dropEntry key map.entries, map.ascending.drop key⟩

/-- The number of entries. -/
def size (map : ByteMap) : Nat :=
  map.entries.length

/-! ## The view -/

@[simp] theorem get?_empty (key : Bytes) : empty.get? key = none := rfl

theorem entryValue?_putEntry (key value other : Bytes) (entries : List Entry) :
    entryValue? other (putEntry key value entries) =
      if other = key then some value else entryValue? other entries := by
  induction entries with
  | nil => simp [putEntry, entryValue?]
  | cons head rest ih =>
      simp only [putEntry]
      split
      · simp [entryValue?]
      · split
        next same =>
          subst same
          by_cases equal : other = head.1 <;> simp [entryValue?, equal]
        next different =>
          by_cases equal : other = head.1
          · subst equal
            simp [entryValue?, Ne.symm different]
          · simp [entryValue?, equal, ih]

@[simp] theorem get?_insert (map : ByteMap) (key value other : Bytes) :
    (map.insert key value).get? other =
      if other = key then some value else map.get? other :=
  entryValue?_putEntry key value other map.entries

theorem entryValue?_dropEntry (key other : Bytes) (entries : List Entry) :
    entryValue? other (dropEntry key entries) =
      if other = key then none else entryValue? other entries := by
  induction entries with
  | nil => simp [dropEntry, entryValue?]
  | cons head rest ih =>
      simp only [dropEntry, List.filter_cons] at ih ⊢
      by_cases same : head.1 = key
      · by_cases equal : other = key <;> simp_all [entryValue?]
      · by_cases equal : other = head.1
        · simp_all [entryValue?]
        · simp_all [entryValue?]

@[simp] theorem get?_erase (map : ByteMap) (key other : Bytes) :
    (map.erase key).get? other = if other = key then none else map.get? other :=
  entryValue?_dropEntry key other map.entries

theorem entryValue?_eq_some_iff {entries : List Entry} (ascending : Ascending entries)
    (key value : Bytes) :
    entryValue? key entries = some value ↔ (key, value) ∈ entries := by
  induction entries with
  | nil => simp [entryValue?]
  | cons head rest ih =>
      obtain ⟨below, restAscending⟩ := List.pairwise_cons.1 ascending
      obtain ⟨other, kept⟩ := head
      simp only [entryValue?, List.mem_cons, Prod.mk.injEq]
      split
      next same =>
        subst same
        constructor
        · rintro ⟨⟩
          exact Or.inl ⟨rfl, rfl⟩
        · rintro (⟨-, rfl⟩ | member)
          · rfl
          · exact absurd (below _ member) (List.lt_irrefl key)
      next different => simp [different, ih restAscending]

/-- The entries of a map are the pairs of its view. -/
theorem mem_entries_iff (map : ByteMap) (key value : Bytes) :
    (key, value) ∈ map.entries ↔ map.get? key = some value :=
  (entryValue?_eq_some_iff map.ascending key value).symm

/-- Two ascending lists with the same members are equal. -/
theorem eq_of_mem_iff {left right : List Entry} (leftAscending : Ascending left)
    (rightAscending : Ascending right) (same : ∀ entry, entry ∈ left ↔ entry ∈ right) :
    left = right := by
  induction left generalizing right with
  | nil =>
      cases right with
      | nil => rfl
      | cons head rest => simpa using (same head).2 List.mem_cons_self
  | cons head rest ih =>
      cases right with
      | nil => simpa using (same head).1 List.mem_cons_self
      | cons other others =>
          obtain ⟨below, restAscending⟩ := List.pairwise_cons.1 leftAscending
          obtain ⟨otherBelow, othersAscending⟩ := List.pairwise_cons.1 rightAscending
          have heads : head = other := by
            rcases List.mem_cons.1 ((same head).1 List.mem_cons_self) with equal | member
            · exact equal
            · rcases List.mem_cons.1 ((same other).2 List.mem_cons_self) with equal | otherMember
              · exact equal.symm
              · exact absurd (List.lt_trans (otherBelow _ member) (below _ otherMember))
                  (List.lt_irrefl _)
          subst heads
          refine congrArg (head :: ·) (ih restAscending othersAscending fun entry => ?_)
          have all := same entry
          simp only [List.mem_cons] at all
          constructor
          · intro member
            rcases all.1 (Or.inr member) with rfl | found
            · exact absurd (below _ member) (List.lt_irrefl _)
            · exact found
          · intro member
            rcases all.2 (Or.inr member) with rfl | found
            · exact absurd (otherBelow _ member) (List.lt_irrefl _)
            · exact found

/-- Maps are equal when their views are. -/
@[ext] theorem ext {left right : ByteMap}
    (same : ∀ key, left.get? key = right.get? key) : left = right := by
  have entries : left.entries = right.entries := by
    refine eq_of_mem_iff left.ascending right.ascending fun ⟨key, value⟩ => ?_
    rw [mem_entries_iff, mem_entries_iff, same key]
  cases left
  cases right
  simpa using entries

end ByteMap

end ChainFollower
