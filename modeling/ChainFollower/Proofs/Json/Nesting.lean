import ChainFollower.Proofs.Json.Documents

/-!
# How deep texts nest

`nesting text` is the greatest number of arrays and objects that are open at once, found by a
scan of the bytes.  A text that renders a tree nests as deep as the tree does, and is read as it.
-/

namespace ChainFollower

namespace Json

/-! ## Scanning a text -/

/-- Where a scan stands: how many arrays and objects are open, the most that were, whether the
scan is inside a string, and whether it is behind a backslash there. -/
structure Scan where
  depth : Nat
  deepest : Nat
  quoted : Bool
  escaped : Bool

/-- The scan after one more byte.  Brackets and braces count outside of strings only. -/
def Scan.next (scan : Scan) (byte : UInt8) : Scan :=
  if scan.escaped then { scan with escaped := false }
  else if scan.quoted then
    if byte = 0x5C then { scan with escaped := true }
    else if byte = 0x22 then { scan with quoted := false }
    else scan
  else if byte = 0x22 then { scan with quoted := true }
  else if byte = 0x5B ∨ byte = 0x7B then
    { scan with depth := scan.depth + 1, deepest := max scan.deepest (scan.depth + 1) }
  else if byte = 0x5D ∨ byte = 0x7D then { scan with depth := scan.depth - 1 }
  else scan

/-- The deepest nesting of arrays and objects in a text, counted from the outermost. -/
def nesting (text : Bytes) : Nat :=
  (text.foldl Scan.next ⟨0, 0, false, false⟩).deepest

/-- Wherever a text stands, a scan passes over it and sees so many levels more. -/
def Nests (text : Bytes) (levels : Nat) : Prop :=
  ∀ depth deepest, depth ≤ deepest →
    text.foldl Scan.next ⟨depth, deepest, false, false⟩ =
      ⟨depth, max deepest (depth + levels), false, false⟩

variable {text left right : Bytes} {levels more : Nat}

theorem nesting_of_nests (nests : Nests text levels) : nesting text = levels := by
  rw [nesting, nests 0 0 (Nat.le_refl 0)]
  simp only [Nat.zero_add, Nat.zero_max]

theorem nests_append (nestsLeft : Nests left levels) (nestsRight : Nests right more) :
    Nests (left ++ right) (max levels more) := by
  intro depth deepest within
  rw [List.foldl_append, nestsLeft depth deepest within, nestsRight depth _ (by omega)]
  congr 1
  omega

/-- The bytes that a scan looks at outside of strings. -/
def marks : Bytes := [0x22, 0x5B, 0x7B, 0x5D, 0x7D]

theorem nests_plain (plain : ∀ byte ∈ text, byte ∉ marks) : Nests text 0 := by
  intro depth deepest within
  rw [show max deepest (depth + 0) = deepest by omega]
  induction text with
  | nil => rfl
  | cons byte rest ih =>
      have other := plain byte List.mem_cons_self
      simp only [marks, List.mem_cons, List.not_mem_nil, or_false, not_or] at other
      have same : Scan.next ⟨depth, deepest, false, false⟩ byte = ⟨depth, deepest, false, false⟩ := by
        simp [Scan.next, other]
      rw [List.foldl_cons, same]
      exact ih fun later member => plain later (List.mem_cons_of_mem _ member)

/-- Brackets or braces around a text add a level. -/
theorem nests_enclosed {opening closing : UInt8} (opens : opening = 0x5B ∨ opening = 0x7B)
    (closes : closing = 0x5D ∨ closing = 0x7D) (nests : Nests text levels) :
    Nests (opening :: text ++ [closing]) (levels + 1) := by
  intro depth deepest within
  have started : Scan.next ⟨depth, deepest, false, false⟩ opening =
      ⟨depth + 1, max deepest (depth + 1), false, false⟩ := by
    rcases opens with rfl | rfl <;> rfl
  have ended (depth deepest : Nat) : Scan.next ⟨depth + 1, deepest, false, false⟩ closing =
      ⟨depth, deepest, false, false⟩ := by
    rcases closes with rfl | rfl <;> rfl
  rw [List.cons_append, List.foldl_cons, started, List.foldl_append, nests _ _ (by omega),
    List.foldl_cons, ended, List.foldl_nil]
  congr 1
  omega

/-! ## Strings and integers -/

/-- Inside a string, a scan passes over the escape of any byte. -/
theorem foldl_next_escape (depth deepest : Nat) (byte : UInt8) :
    (escape byte).foldl Scan.next ⟨depth, deepest, true, false⟩ =
      ⟨depth, deepest, true, false⟩ := by
  unfold escape
  split
  case h_8 notQuote notBackslash _ _ _ _ _ =>
    split
    next control =>
      have plain : ∀ number < 32,
          (hexDigit (UInt8.ofNat number / 16) ≠ 0x5C ∧ hexDigit (UInt8.ofNat number / 16) ≠ 0x22) ∧
          hexDigit (UInt8.ofNat number % 16) ≠ 0x5C ∧
            hexDigit (UInt8.ofNat number % 16) ≠ 0x22 := by decide
      have bound : byte.toNat < 32 := UInt8.lt_iff_toNat_lt.1 control
      have digits := plain byte.toNat bound
      rw [UInt8.ofNat_toNat] at digits
      simp [Scan.next, digits]
    next =>
      have quote : byte ≠ 0x22 := notQuote
      have backslash : byte ≠ 0x5C := notBackslash
      simp [Scan.next, quote, backslash]
  all_goals rfl

theorem nests_string (value : String) : Nests (writeString value) 0 := by
  intro depth deepest within
  have inside : ((Bytes.ofString value).flatMap escape).foldl Scan.next
      ⟨depth, deepest, true, false⟩ = ⟨depth, deepest, true, false⟩ := by
    generalize Bytes.ofString value = bytes
    induction bytes with
    | nil => rfl
    | cons byte rest ih => rw [List.flatMap_cons, List.foldl_append, foldl_next_escape, ih]
  have opened : Scan.next ⟨depth, deepest, false, false⟩ 0x22 =
      ⟨depth, deepest, true, false⟩ := rfl
  rw [writeString, List.cons_append, List.foldl_cons, opened, List.foldl_append, inside,
    show max deepest (depth + 0) = deepest by omega]
  rfl

theorem nests_integer (value : Int) : Nests (writeInteger value) 0 := by
  have digits (number : Nat) : ∀ byte ∈ digitBytes number, byte ∉ marks := by
    intro byte member marked
    have none : ∀ mark ∈ marks, Ascii.isDigit mark = false := by simp [marks, Ascii.isDigit]
    exact Bool.noConfusion ((isDigit_of_mem_digitBytes member).symm.trans (none byte marked))
  apply nests_plain
  rw [writeInteger_eq]
  split
  · exact digits _
  · intro byte member
    rcases List.mem_cons.1 member with rfl | member
    · decide
    · exact digits _ byte member

/-! ## Trees -/

end Json

namespace Json.Written

mutual

/-- The deepest nesting of arrays and objects in a tree. -/
def nesting : Written → Nat
  | .array items => itemsNesting items + 1
  | .object fields => fieldsNesting fields + 1
  | _ => 0

/-- The deepest nesting in any of the items. -/
def itemsNesting : List Written → Nat
  | [] => 0
  | item :: items => max (nesting item) (itemsNesting items)

/-- The deepest nesting in the value of any of the fields. -/
def fieldsNesting : List (Option String × Written) → Nat
  | [] => 0
  | (_, value) :: fields => max (nesting value) (fieldsNesting fields)

end

theorem itemsNesting_le {items : List Written} {levels : Nat} :
    itemsNesting items ≤ levels ↔ ∀ item ∈ items, item.nesting ≤ levels := by
  induction items with
  | nil => simp [itemsNesting]
  | cons item items ih => rw [itemsNesting, Nat.max_le, ih, List.forall_mem_cons]

theorem fieldsNesting_le {fields : List (Option String × Written)} {levels : Nat} :
    fieldsNesting fields ≤ levels ↔ ∀ field ∈ fields, field.2.nesting ≤ levels := by
  induction fields with
  | nil => simp [fieldsNesting]
  | cons field fields ih => rw [fieldsNesting, Nat.max_le, ih, List.forall_mem_cons]

end Json.Written

namespace Json

/-- A text is read as a tree wherever it stands, and nests as deep as the tree. -/
structure Renders (text : Bytes) (written : Written) : Prop where
  spells : Spells text written
  nests : Nests text written.nesting

/-- What a text renders is what the whole text is read as. -/
theorem Renders.parse? {written : Written} (renders : Renders text written) :
    Written.parse? text = some written :=
  parse?_of_spells renders.spells

theorem Renders.nesting {written : Written} (renders : Renders text written) :
    nesting text = written.nesting :=
  nesting_of_nests renders.nests

theorem renders_string (value : String) : Renders (writeString value) (.string (some value)) :=
  ⟨spells_string value, nests_string value⟩

theorem renders_integer (value : Int) :
    Renders (writeInteger value) (.number (numeralOf value)) :=
  ⟨spells_integer value, nests_integer value⟩

theorem nests_comma : Nests [0x2C] 0 :=
  nests_plain (by simp [marks])

theorem nests_joinComma_items {texts : List Bytes} {items : List Written}
    (parts : List.Forall₂ Renders texts items) :
    Nests (joinComma texts) (Written.itemsNesting items) := by
  induction parts with
  | nil => exact nests_plain (by simp [joinComma])
  | @cons text item texts items renders others ih =>
      cases others with
      | nil =>
          simp only [joinComma, Written.itemsNesting, Nat.max_zero]
          exact renders.nests
      | cons next later =>
          have joined := nests_append renders.nests (nests_append nests_comma ih)
          rwa [Nat.zero_max] at joined

theorem renders_array {texts : List Bytes} {items : List Written}
    (parts : List.Forall₂ Renders texts items) : Renders (writeArray texts) (.array items) where
  spells := spells_array (parts.imp fun _ _ renders => renders.spells)
  nests := nests_enclosed (Or.inl rfl) (Or.inl rfl) (nests_joinComma_items parts)

/-- A field is rendered by its name and the text of its value. -/
def RendersField (field : String × Bytes) (read : Option String × Written) : Prop :=
  read.1 = some field.1 ∧ Renders field.2 read.2

theorem nests_fieldText {name : String} {value : Bytes} (nests : Nests value levels) :
    Nests (fieldText (name, value)) levels := by
  have colon : Nests [0x3A] 0 := nests_plain (by simp [marks])
  have joined := nests_append (nests_string name) (nests_append colon nests)
  rwa [Nat.zero_max, Nat.zero_max] at joined

theorem nests_joinComma_fields {fields : List (String × Bytes)}
    {reads : List (Option String × Written)} (parts : List.Forall₂ RendersField fields reads) :
    Nests (joinComma (fields.map fieldText)) (Written.fieldsNesting reads) := by
  induction parts with
  | nil => exact nests_plain (by simp [joinComma])
  | @cons field read fields reads renders others ih =>
      have nests : Nests (fieldText field) read.2.nesting := nests_fieldText renders.2.nests
      cases others with
      | nil =>
          simp only [List.map_cons, List.map_nil, joinComma, Written.fieldsNesting, Nat.max_zero]
          exact nests
      | cons next later =>
          have joined := nests_append nests (nests_append nests_comma ih)
          rwa [Nat.zero_max] at joined

theorem renders_object {fields : List (String × Bytes)} {reads : List (Option String × Written)}
    (parts : List.Forall₂ RendersField fields reads) :
    Renders (writeObject fields) (.object reads) where
  spells := spells_object (parts.imp fun _ _ renders => ⟨renders.1, renders.2.spells⟩)
  nests := nests_enclosed (Or.inr rfl) (Or.inr rfl) (nests_joinComma_fields parts)

end Json

end ChainFollower
