import ChainFollower.Proofs.Json.Nesting

/-!
# Free-form values read back

A free-form value whose numbers are integers is written as a tree that is read as the value
again, if the reader has room for its nesting.  What is read from any tree has sorted fields and
nests no deeper than the reader has room.
-/

namespace ChainFollower

namespace Json

open Written (readValue)

/-- Every number in the value is an integer that is kept exactly, or minus zero. -/
inductive Integral : Json → Prop
  | null : Integral .null
  | boolean (value : Bool) : Integral (.boolean value)
  | integer {value : Int} (exact : isExact value = true) : Integral (.integer value)
  | minusZero : Integral (.double (.zero true))
  | string (text : String) : Integral (.string text)
  | array {items : List Json} (all : ∀ item ∈ items, Integral item) : Integral (.array items)
  | object {fields : List (String × Json)} (all : ∀ field ∈ fields, Integral field.2) :
      Integral (.object fields)

/-- The fields of every object are in ascending order of their names, without repetition. -/
inductive Sorted : Json → Prop
  | null : Sorted .null
  | boolean (value : Bool) : Sorted (.boolean value)
  | integer (value : Int) : Sorted (.integer value)
  | double (value : Decimal.Binary64) : Sorted (.double value)
  | string (text : String) : Sorted (.string text)
  | array {items : List Json} (all : ∀ item ∈ items, Sorted item) : Sorted (.array items)
  | object {fields : List (String × Json)}
      (ascending : fields.Pairwise fun first second => first.1 < second.1)
      (all : ∀ field ∈ fields, Sorted field.2) : Sorted (.object fields)

/-- Minus zero as it is written. -/
def minusZero : Numeral :=
  ⟨true, [0], [0], none⟩

mutual

/-- The tree as which a value is written whose only double is minus zero. -/
def tree : Json → Written
  | .null => .null
  | .boolean value => .boolean value
  | .integer value => .number (numeralOf value)
  | .double _ => .number minusZero
  | .string text => .string (some text)
  | .array items => .array (itemTrees items)
  | .object fields => .object (fieldTrees fields)

/-- The trees of all items. -/
def itemTrees : List Json → List Written
  | [] => []
  | item :: items => tree item :: itemTrees items

/-- The names and trees of all fields. -/
def fieldTrees : List (String × Json) → List (Option String × Written)
  | [] => []
  | (name, value) :: fields => (some name, tree value) :: fieldTrees fields

end

variable {json : Json} {items : List Json} {fields : List (String × Json)} {room : Nat}

theorem itemTrees_eq_map (items : List Json) : itemTrees items = items.map tree := by
  induction items with
  | nil => rfl
  | cons item items ih => rw [itemTrees, ih, List.map_cons]

theorem fieldTrees_eq_map (fields : List (String × Json)) :
    fieldTrees fields = fields.map fun field => (some field.1, field.2.tree) := by
  induction fields with
  | nil => rfl
  | cons field fields ih => rw [fieldTrees, ih, List.map_cons]

/-! ## Writing -/

/-- A word that the reader knows is read as a tree. -/
theorem spells_word {text : Bytes} {written : Written}
    (starts : ∃ first tail, text = first :: tail ∧ Ascii.isBlank first = false ∧ first ≠ 0x5D)
    (reads : ∀ fuel rest, readValue (fuel + 1) (text ++ rest) = some (written, rest)) :
    Spells text written where
  starts := starts
  reads := by
    intro fuel rest enough _
    obtain ⟨first, tail, rfl, -, -⟩ := starts
    rw [List.length_cons] at enough
    obtain ⟨fuel, rfl⟩ : ∃ less, fuel = less + 1 := ⟨fuel - 1, by omega⟩
    exact reads fuel rest

theorem renders_null : Renders (write .null) .null where
  spells := spells_word ⟨0x6E, _, rfl, by decide, by decide⟩ fun _ _ => rfl
  nests := nests_plain (by simp [marks, write])

theorem renders_boolean (value : Bool) : Renders (write (.boolean value)) (.boolean value) := by
  cases value with
  | true => exact ⟨spells_word ⟨0x74, _, rfl, by decide, by decide⟩ fun _ _ => rfl,
      nests_plain (by simp [marks, write])⟩
  | false => exact ⟨spells_word ⟨0x66, _, rfl, by decide, by decide⟩ fun _ _ => rfl,
      nests_plain (by simp [marks, write])⟩

theorem renders_minusZero : Renders (write (.double (.zero true))) (.number minusZero) := by
  have text : write (.double (.zero true)) = [0x2D, 0x30, 0x2E, 0x30] := by decide
  rw [text]
  refine ⟨spells_numeral ⟨0x2D, _, rfl, by decide⟩ fun rest ends => ?_, nests_plain (by simp [marks])⟩
  have digits : readDigits (0x30 :: rest) = ([0], rest) := readDigits_digitBytes 0 ends
  simp [readNumeral, readWhole, readFraction, digits, readExponent_of_endsNumber ends, minusZero]

/-- A value whose numbers are integers is written as its tree. -/
theorem renders_tree (integral : json.Integral) : Renders json.write json.tree := by
  induction integral with
  | null => exact renders_null
  | boolean value => exact renders_boolean value
  | integer => exact renders_integer _
  | minusZero => exact renders_minusZero
  | string text => exact renders_string text
  | @array items all ih =>
      have parts : List.Forall₂ Renders (writeItems items) (itemTrees items) := by
        induction items with
        | nil => exact .nil
        | cons item items others =>
            exact .cons (ih item List.mem_cons_self)
              (others (fun _ member => all _ (List.mem_cons_of_mem _ member))
                fun other member => ih other (List.mem_cons_of_mem _ member))
      exact renders_array parts
  | @object fields all ih =>
      have parts : List.Forall₂ RendersField (writeFields fields) (fieldTrees fields) := by
        induction fields with
        | nil => exact .nil
        | cons field fields others =>
            exact .cons ⟨rfl, ih field List.mem_cons_self⟩
              (others (fun _ member => all _ (List.mem_cons_of_mem _ member))
                fun other member => ih other (List.mem_cons_of_mem _ member))
      exact renders_object parts

/-! ## Fields in order -/

/-- A name above all others is put at the end. -/
theorem insertField_of_lt {name : String} {value : Json}
    (above : ∀ field ∈ fields, field.1 < name) :
    insertField name value fields = fields ++ [(name, value)] := by
  induction fields with
  | nil => rfl
  | cons field fields ih =>
      have below := above field List.mem_cons_self
      rw [insertField, if_neg (String.lt_asymm below), if_pos below,
        ih fun other member => above other (List.mem_cons_of_mem _ member), List.cons_append]

/-- Sorted fields are kept as they are. -/
theorem ofFields_of_ascending (ascending : fields.Pairwise fun first second => first.1 < second.1) :
    ofFields fields = .object fields := by
  have appended : ∀ (rest kept : List (String × Json)),
      (kept ++ rest).Pairwise (fun first second => first.1 < second.1) →
      rest.foldl (fun kept field => insertField field.1 field.2 kept) kept = kept ++ rest := by
    intro rest
    induction rest with
    | nil => exact fun kept _ => (List.append_nil kept).symm
    | cons field rest ih =>
        intro kept sorted
        have above : ∀ other ∈ kept, other.1 < field.1 := fun other member =>
          (List.pairwise_append.1 sorted).2.2 other member field List.mem_cons_self
        rw [List.foldl_cons, insertField_of_lt above, ih, List.append_assoc]
        · rfl
        · rwa [List.append_assoc]
  rw [ofFields, appended fields [] ascending, List.nil_append]

theorem mem_insertField {name : String} {value : Json} {field : String × Json}
    (member : field ∈ insertField name value fields) : field = (name, value) ∨ field ∈ fields := by
  induction fields with
  | nil => exact Or.inl (List.mem_singleton.1 member)
  | cons head rest ih =>
      simp only [insertField] at member
      split at member
      next => exact List.mem_cons.1 member
      next =>
        split at member
        next =>
          rcases List.mem_cons.1 member with rfl | member
          · exact Or.inr List.mem_cons_self
          · exact (ih member).imp_right (List.mem_cons_of_mem _)
        next => exact (List.mem_cons.1 member).imp_right (List.mem_cons_of_mem _)

theorem pairwise_insertField (name : String) (value : Json)
    (ascending : fields.Pairwise fun first second => first.1 < second.1) :
    (insertField name value fields).Pairwise fun first second => first.1 < second.1 := by
  induction fields with
  | nil => exact List.pairwise_singleton _ _
  | cons head rest ih =>
      obtain ⟨below, restAscending⟩ := List.pairwise_cons.1 ascending
      simp only [insertField]
      split
      next less =>
        refine List.pairwise_cons.2 ⟨fun field member => ?_, ascending⟩
        rcases List.mem_cons.1 member with rfl | member
        · exact less
        · exact Std.lt_trans less (below field member)
      next notLess =>
        split
        next greater =>
          refine List.pairwise_cons.2 ⟨fun field member => ?_, ih restAscending⟩
          rcases mem_insertField member with rfl | member
          · exact greater
          · exact below field member
        next notGreater =>
          have same : name = head.1 := by
            rcases Std.lt_trichotomy name head.1 with less | same | greater
            · exact absurd less notLess
            · exact same
            · exact absurd greater notGreater
          exact List.pairwise_cons.2 ⟨fun field member => same ▸ below field member, restAscending⟩

/-- The fields of an object are some of those given, sorted. -/
theorem ofFields_eq (fields : List (String × Json)) :
    ∃ kept, ofFields fields = .object kept ∧
      kept.Pairwise (fun first second => first.1 < second.1) ∧ ∀ field ∈ kept, field ∈ fields := by
  have gathered : ∀ (rest kept : List (String × Json)),
      kept.Pairwise (fun first second => first.1 < second.1) →
      (rest.foldl (fun kept field => insertField field.1 field.2 kept) kept).Pairwise
        (fun first second => first.1 < second.1) ∧
      ∀ field ∈ rest.foldl (fun kept field => insertField field.1 field.2 kept) kept,
        field ∈ kept ∨ field ∈ rest := by
    intro rest
    induction rest with
    | nil => exact fun kept ascending => ⟨ascending, fun field member => Or.inl member⟩
    | cons head rest ih =>
        intro kept ascending
        obtain ⟨sorted, among⟩ := ih _ (pairwise_insertField head.1 head.2 ascending)
        refine ⟨sorted, fun field member => ?_⟩
        rcases among field member with member | member
        · rcases mem_insertField member with rfl | member
          · exact Or.inr List.mem_cons_self
          · exact Or.inl member
        · exact Or.inr (List.mem_cons_of_mem _ member)
  obtain ⟨sorted, among⟩ := gathered fields [] .nil
  exact ⟨_, rfl, sorted, fun field member => (among field member).resolve_left List.not_mem_nil⟩

/-! ## Reading -/

/-- Each item on the right of related lists has a partner on the left. -/
theorem exists_related {α β : Type} {relation : α → β → Prop} {left : List α} {right : List β}
    (related : List.Forall₂ relation left right) {item : β} (member : item ∈ right) :
    ∃ other ∈ left, relation other item := by
  induction related with
  | nil => nomatch member
  | @cons first _ left _ pair _ ih =>
      rcases List.mem_cons.1 member with rfl | member
      · exact ⟨first, List.mem_cons_self, pair⟩
      · obtain ⟨other, among, pair⟩ := ih member
        exact ⟨other, List.mem_cons_of_mem _ among, pair⟩

/-- The items of an array are read one by one. -/
theorem itemsOfWritten?_eq_some_iff {written : List Written} :
    itemsOfWritten? room written = some items ↔
      List.Forall₂ (fun item value => ofWritten? room item = some value) written items := by
  induction written generalizing items with
  | nil => simp [itemsOfWritten?, eq_comm]
  | cons item written ih =>
      simp only [itemsOfWritten?, Option.bind_eq_bind, Option.bind_eq_some_iff,
        List.forall₂_cons_left_iff, ih]
      simp [eq_comm]

/-- So are the fields of an object. -/
theorem fieldsOfWritten?_eq_some_iff {written : List (Option String × Written)} :
    fieldsOfWritten? room written = some fields ↔
      List.Forall₂ (fun field read => field.1 = some read.1 ∧
        ofWritten? room field.2 = some read.2) written fields := by
  induction written generalizing fields with
  | nil => simp [fieldsOfWritten?, eq_comm]
  | cons field written ih =>
      simp only [fieldsOfWritten?, Option.bind_eq_bind, Option.bind_eq_some_iff,
        List.forall₂_cons_left_iff, ih]
      simp [eq_comm, and_assoc]

/-- The tree of a value is read as the value, if there is room for it. -/
theorem ofWritten?_tree (integral : json.Integral) (sorted : json.Sorted)
    (fits : json.tree.nesting ≤ room) : ofWritten? room json.tree = some json := by
  induction integral generalizing room with
  | null => cases room <;> rfl
  | boolean => cases room <;> rfl
  | @integer value exact =>
      have denotes : (numeralOf value).value? = some (.integer value) := by
        rw [Numeral.value?, integer?_numeralOf]
        exact if_pos exact
      cases room <;> exact denotes
  | minusZero => cases room <;> rfl
  | string => cases room <;> rfl
  | @array items _ ih =>
      cases sorted with
      | array allSorted =>
      rw [tree, Written.nesting] at fits
      obtain ⟨room, rfl⟩ : ∃ less, room = less + 1 := ⟨room - 1, by omega⟩
      rw [itemTrees_eq_map] at fits
      have each := Written.itemsNesting_le.1 (Nat.le_of_succ_le_succ fits)
      have read : itemsOfWritten? room (itemTrees items) = some items := by
        rw [itemsOfWritten?_eq_some_iff, itemTrees_eq_map, List.forall₂_map_left_iff,
          List.forall₂_same]
        exact fun item member =>
          ih item member (allSorted item member) (each _ (List.mem_map_of_mem member))
      rw [tree, ofWritten?, read]
      rfl
  | @object fields _ ih =>
      cases sorted with
      | object ascending allSorted =>
      rw [tree, Written.nesting] at fits
      obtain ⟨room, rfl⟩ : ∃ less, room = less + 1 := ⟨room - 1, by omega⟩
      rw [fieldTrees_eq_map] at fits
      have each := Written.fieldsNesting_le.1 (Nat.le_of_succ_le_succ fits)
      have read : fieldsOfWritten? room (fieldTrees fields) = some fields := by
        rw [fieldsOfWritten?_eq_some_iff, fieldTrees_eq_map, List.forall₂_map_left_iff,
          List.forall₂_same]
        exact fun field member =>
          ⟨rfl, ih field member (allSorted field member) (each _ (List.mem_map_of_mem member))⟩
      rw [tree, ofWritten?, read, Option.map_some, ofFields_of_ascending ascending]

/-- The ways in which a tree is read as a value. -/
inductive ReadAs : (room : Nat) → Written → Json → Prop
  | null {room : Nat} : ReadAs room .null .null
  | boolean {room : Nat} (value : Bool) : ReadAs room (.boolean value) (.boolean value)
  | integer {room : Nat} (numeral : Numeral) (value : Int) :
      ReadAs room (.number numeral) (.integer value)
  | double {room : Nat} (numeral : Numeral) (value : Decimal.Binary64) :
      ReadAs room (.number numeral) (.double value)
  | string {room : Nat} (text : String) : ReadAs room (.string (some text)) (.string text)
  | array {room : Nat} {written : List Written} {items : List Json}
      (each : itemsOfWritten? room written = some items) :
      ReadAs (room + 1) (.array written) (.array items)
  | object {room : Nat} {written : List (Option String × Written)}
      {fields kept : List (String × Json)} (each : fieldsOfWritten? room written = some fields)
      (sorted : ofFields fields = .object kept) : ReadAs (room + 1) (.object written) (.object kept)

theorem readAs_of_ofWritten? {written : Written} (read : ofWritten? room written = some json) :
    ReadAs room written json := by
  cases written with
  | null =>
      cases room <;> cases read <;> exact .null
  | boolean value =>
      cases room <;> cases read <;> exact .boolean value
  | number numeral =>
      have value : numeral.value? = some json := by cases room <;> exact read
      unfold Numeral.value? at value
      split at value
      next whole _ =>
        split at value
        next =>
          cases value
          exact .integer numeral whole
        next =>
          obtain ⟨double, -, rfl⟩ := Option.map_eq_some_iff.1 value
          exact .double numeral double
      next =>
        obtain ⟨double, -, rfl⟩ := Option.map_eq_some_iff.1 value
        exact .double numeral double
  | string text =>
      have value : text.map Json.string = some json := by cases room <;> exact read
      obtain ⟨text, rfl, rfl⟩ := Option.map_eq_some_iff.1 value
      exact .string text
  | array items =>
      cases room with
      | zero => cases read
      | succ room =>
          obtain ⟨values, each, rfl⟩ := Option.map_eq_some_iff.1 read
          exact .array each
  | object fields =>
      cases room with
      | zero => cases read
      | succ room =>
          obtain ⟨values, each, rfl⟩ := Option.map_eq_some_iff.1 read
          exact .object each rfl

/-- Only the word null is read as null. -/
theorem eq_null_of_ofWritten? {written : Written} (read : ofWritten? room written = some .null) :
    written = .null := by
  cases readAs_of_ofWritten? read
  rfl

/-- What is read has sorted fields and nests no deeper than there is room. -/
theorem sorted_of_ofWritten? {written : Written} (read : ofWritten? room written = some json) :
    json.Sorted ∧ json.tree.nesting ≤ room := by
  induction room generalizing written json with
  | zero =>
      cases readAs_of_ofWritten? read with
      | null => exact ⟨.null, Nat.le_refl 0⟩
      | boolean value => exact ⟨.boolean value, Nat.le_refl 0⟩
      | integer _ value => exact ⟨.integer value, Nat.le_refl 0⟩
      | double _ value => exact ⟨.double value, Nat.le_refl 0⟩
      | string text => exact ⟨.string text, Nat.le_refl 0⟩
  | succ room ih =>
      cases readAs_of_ofWritten? read with
      | null => exact ⟨.null, Nat.zero_le _⟩
      | boolean value => exact ⟨.boolean value, Nat.zero_le _⟩
      | integer _ value => exact ⟨.integer value, Nat.zero_le _⟩
      | double _ value => exact ⟨.double value, Nat.zero_le _⟩
      | string text => exact ⟨.string text, Nat.zero_le _⟩
      | @array _ written items each =>
          have kept : ∀ item ∈ items, item.Sorted ∧ item.tree.nesting ≤ room := by
            intro item member
            obtain ⟨_, _, readItem⟩ := exists_related (itemsOfWritten?_eq_some_iff.1 each) member
            exact ih readItem
          refine ⟨.array fun item member => (kept item member).1, ?_⟩
          rw [tree, Written.nesting, itemTrees_eq_map]
          refine Nat.succ_le_succ (Written.itemsNesting_le.2 fun _ member => ?_)
          obtain ⟨item, among, rfl⟩ := List.mem_map.1 member
          exact (kept item among).2
      | @object _ written fields kept each sorted =>
          obtain ⟨gathered, same, ascending, among⟩ := ofFields_eq fields
          cases same.symm.trans sorted
          have all : ∀ field ∈ kept, field.2.Sorted ∧ field.2.tree.nesting ≤ room := by
            intro field member
            obtain ⟨_, _, -, readField⟩ :=
              exists_related (fieldsOfWritten?_eq_some_iff.1 each) (among field member)
            exact ih readField
          refine ⟨.object ascending fun field member => (all field member).1, ?_⟩
          rw [tree, Written.nesting, fieldTrees_eq_map]
          refine Nat.succ_le_succ (Written.fieldsNesting_le.2 fun _ member => ?_)
          obtain ⟨field, among, rfl⟩ := List.mem_map.1 member
          exact (all field among).2

end Json

end ChainFollower
