import ChainFollower.Proofs.Json.FreeForm

/-!
# Typed values read back

A type is legible when its values are written as trees from which they are read again, and what
is read from any tree can be written and read once more.  Records are legible when their parts
are: `Row` describes the parts of a record in order, and `Layout` relates a record to its row.
-/

namespace ChainFollower

namespace Json

/-! ## Free-form values inside others -/

/-- Types whose values hold free-form values. -/
class FreeForm (α : Type) where
  /-- The free-form values inside a value. -/
  freeForm : α → List Json

open FreeForm (freeForm)

instance : FreeForm String := ⟨fun _ => []⟩

instance : FreeForm Int64 := ⟨fun _ => []⟩

instance : FreeForm Int32 := ⟨fun _ => []⟩

instance : FreeForm Json := ⟨fun json => [json]⟩

instance {α : Type} [FreeForm α] : FreeForm (Option α) := ⟨fun value => value.toList.flatMap freeForm⟩

instance {α : Type} [FreeForm α] : FreeForm (List α) := ⟨fun items => items.flatMap freeForm⟩

/-- A free-form value that is no bare null, has sorted fields, and whose numbers are integers. -/
structure Proper (json : Json) : Prop where
  ne_null : json ≠ .null
  integral : json.Integral
  sorted : json.Sorted

/-- A type whose values are written as trees and read from them again. -/
class Legible (α : Type) [Form α] [FreeForm α] where
  tree : α → Written
  /-- How deep a value may nest, however little room it was read with: lists that are missing in
  what is read are written as empty ones. -/
  least : Nat
  renders : ∀ {value : α}, (∀ json ∈ freeForm value, json.Proper) →
    Renders (Form.write value) (tree value)
  tree_ne_null : ∀ {value : α}, (∀ json ∈ freeForm value, json.Proper) → tree value ≠ .null
  read?_tree : ∀ {value : α} {room : Nat}, (∀ json ∈ freeForm value, json.Proper) →
    (tree value).nesting ≤ room → Form.read? room (tree value) = some value
  proper_of_read? : ∀ {value : α} {room : Nat} {written : Written},
    Form.read? room written = some value → written ≠ .null →
    (∀ json ∈ freeForm value, json.Integral) →
    (∀ json ∈ freeForm value, json.Proper) ∧ (tree value).nesting ≤ max room least

/-- A type none of whose values is read from null. -/
class Solid (α : Type) [Form α] : Prop where
  read?_null : ∀ room, (Form.read? room .null : Option α) = none

variable {α β ρ : Type} {room : Nat} {written : Written}

theorem ne_null_of_read? [Form α] [Solid α] {value : α}
    (read : Form.read? room written = some value) : written ≠ .null := by
  rintro rfl
  rw [Solid.read?_null] at read
  cases read

section

variable [Form α] [FreeForm α] [Legible α] {value : α}

/-- A value is read back from its text if the reader has room for its tree. -/
theorem decode?_encode (proper : ∀ json ∈ freeForm value, json.Proper)
    (fits : (Legible.tree value).nesting ≤ nestingLimit) : decode? (encode value) = some value := by
  have renders : Renders (encode value) (Legible.tree value) := Legible.renders proper
  rw [decode?, renders.parse?, Option.bind_some]
  exact Legible.read?_tree proper fits

/-- A value is read back from its text unless the text nests too deep for the reader. -/
theorem decode?_encode_iff (small : Legible.least α ≤ nestingLimit)
    (proper : ∀ json ∈ freeForm value, json.Proper) :
    decode? (encode value) = some value ↔ nesting (encode value) ≤ nestingLimit := by
  have renders : Renders (encode value) (Legible.tree value) := Legible.renders proper
  rw [renders.nesting]
  refine ⟨fun decoded => ?_, decode?_encode proper⟩
  rw [decode?, renders.parse?, Option.bind_some] at decoded
  have integral : ∀ json ∈ freeForm value, json.Integral := fun json inside =>
    (proper json inside).integral
  obtain ⟨-, fits⟩ := Legible.proper_of_read? decoded (Legible.tree_ne_null proper) integral
  omega

/-- What is read from a part of a text is read back from its own text. -/
theorem decode?_encode_of_read? {room : Nat} {written : Written}
    (small : Legible.least α ≤ nestingLimit) (inside : room ≤ nestingLimit)
    (read : Form.read? room written = some value) (notNull : written ≠ .null)
    (integral : ∀ json ∈ freeForm value, json.Integral) :
    decode? (encode value) = some value := by
  obtain ⟨proper, fits⟩ := Legible.proper_of_read? read notNull integral
  exact decode?_encode proper (by omega)

end

/-! ## Scalars, free-form values and lists -/

instance : Legible String where
  tree text := .string (some text)
  least := 0
  renders _ := renders_string _
  tree_ne_null _ := fun same => nomatch same
  read?_tree _ _ := rfl
  proper_of_read? _ _ _ := ⟨fun _ member => (nomatch member), Nat.zero_le _⟩

instance : Solid String := ⟨fun _ => rfl⟩

instance : Legible Int64 where
  tree value := .number (numeralOf value.toInt)
  least := 0
  renders _ := renders_integer _
  tree_ne_null _ := fun same => nomatch same
  read?_tree _ _ := read?_integer _ _
  proper_of_read? _ _ _ := ⟨fun _ member => (nomatch member), Nat.zero_le _⟩

instance : Solid Int64 := ⟨fun _ => rfl⟩

instance : Legible Int32 where
  tree value := .number (numeralOf value.toInt)
  least := 0
  renders _ := renders_integer _
  tree_ne_null _ := fun same => nomatch same
  read?_tree {value _} _ _ := by
    simp only [Form.read?, Written.integerWithin?, integer?_numeralOf, Option.bind_eq_bind,
      Option.bind_some]
    rw [if_pos ⟨value.le_toInt, value.toInt_le⟩, Option.map_some, Int32.ofInt_toInt]
  proper_of_read? _ _ _ := ⟨fun _ member => (nomatch member), Nat.zero_le _⟩

instance : Solid Int32 := ⟨fun _ => rfl⟩

theorem eq_null_of_tree_eq_null {json : Json} (integral : json.Integral)
    (null : json.tree = .null) : json = .null := by
  cases integral with
  | null => rfl
  | _ => cases null

instance : Legible Json where
  tree := Json.tree
  least := 0
  renders proper := renders_tree (proper _ List.mem_cons_self).integral
  tree_ne_null proper null :=
    (proper _ List.mem_cons_self).ne_null
      (eq_null_of_tree_eq_null (proper _ List.mem_cons_self).integral null)
  read?_tree proper fits :=
    ofWritten?_tree (proper _ List.mem_cons_self).integral (proper _ List.mem_cons_self).sorted fits
  proper_of_read? {value room written} read notNull integral := by
    obtain ⟨sorted, fits⟩ := sorted_of_ofWritten? read
    refine ⟨fun json member => ?_, Nat.le_trans fits (Nat.le_max_left _ _)⟩
    obtain rfl := List.mem_singleton.1 member
    refine ⟨?_, integral json member, sorted⟩
    rintro rfl
    exact notNull (eq_null_of_ofWritten? read)

/-- A list is read from an array, item by item. -/
theorem mapM_eq_some_iff {read : α → Option β} {items : List α} {values : List β} :
    items.mapM read = some values ↔
      List.Forall₂ (fun item value => read item = some value) items values := by
  induction items generalizing values with
  | nil => simp [eq_comm]
  | cons item items ih =>
      simp only [List.mapM_cons, Option.bind_eq_bind, Option.bind_eq_some_iff, Option.pure_def,
        List.forall₂_cons_left_iff, ih]
      simp [eq_comm]

section

variable [Form α] [FreeForm α] [Legible α] {items : List α}

theorem renders_list (proper : ∀ json ∈ freeForm items, json.Proper) :
    Renders (Form.write items) (.array (items.map Legible.tree)) := by
  refine renders_array ?_
  rw [List.forall₂_map_left_iff, List.forall₂_map_right_iff, List.forall₂_same]
  exact fun item member => Legible.renders fun json inside =>
    proper json (List.mem_flatMap.2 ⟨item, member, inside⟩)

theorem read?_list (proper : ∀ json ∈ freeForm items, json.Proper)
    (fits : (Written.array (items.map Legible.tree)).nesting ≤ room) :
    Form.read? room (.array (items.map Legible.tree)) = some items := by
  rw [Written.nesting] at fits
  obtain ⟨room, rfl⟩ : ∃ less, room = less + 1 := ⟨room - 1, by omega⟩
  have each := Written.itemsNesting_le.1 (Nat.le_of_succ_le_succ fits)
  refine mapM_eq_some_iff.2 ?_
  rw [List.forall₂_map_left_iff, List.forall₂_same]
  exact fun item member => Legible.read?_tree
    (fun json inside => proper json (List.mem_flatMap.2 ⟨item, member, inside⟩))
    (each _ (List.mem_map_of_mem member))

theorem proper_of_read?_list [Solid α] (read : Form.read? room written = some items)
    (integral : ∀ json ∈ freeForm items, json.Integral) :
    (∀ json ∈ freeForm items, json.Proper) ∧
      (Written.array (items.map Legible.tree)).nesting ≤ max room (Legible.least α + 1) := by
  cases written with
  | array written =>
      cases room with
      | zero => cases read
      | succ room =>
          have each : ∀ item ∈ items, (∀ json ∈ freeForm item, json.Proper) ∧
              (Legible.tree item).nesting ≤ max room (Legible.least α) := by
            intro item member
            obtain ⟨source, _, readItem⟩ := exists_related (mapM_eq_some_iff.1 read) member
            exact Legible.proper_of_read? readItem (ne_null_of_read? readItem) fun json inside =>
              integral json (List.mem_flatMap.2 ⟨item, member, inside⟩)
          refine ⟨fun json inside => ?_, ?_⟩
          · obtain ⟨item, member, inside⟩ := List.mem_flatMap.1 inside
            exact (each item member).1 json inside
          · have within : Written.itemsNesting (items.map Legible.tree) ≤
                max room (Legible.least α) := by
              refine Written.itemsNesting_le.2 fun tree member => ?_
              obtain ⟨item, among, rfl⟩ := List.mem_map.1 member
              exact (each item among).2
            rw [Written.nesting]
            omega
  | _ => cases room <;> cases read

instance [Solid α] : Legible (List α) where
  tree items := .array (items.map Legible.tree)
  least := Legible.least α + 1
  renders := renders_list
  tree_ne_null _ := fun same => nomatch same
  read?_tree := read?_list
  proper_of_read? read _ := proper_of_read?_list read

end

/-! ## Parts of records -/

/-- How a part of a record is written and read: what its fields are under a name, what stands for
it in a tree, and how it is read from what may stand there. -/
structure Part (β : Type) where
  fields : String → β → List (String × Bytes)
  slot : β → Option Written
  read? : (room : Nat) → Option Written → Option β
  inside : β → List Json
  least : Nat
  renders : ∀ {name : String} {value : β}, (∀ json ∈ inside value, json.Proper) →
    List.Forall₂ RendersField (fields name value)
      ((slot value).toList.map fun written => (some name, written))
  read?_slot : ∀ {value : β} {room : Nat}, (∀ json ∈ inside value, json.Proper) →
    (∀ written ∈ slot value, written.nesting ≤ room) → read? room (slot value) = some value
  proper_of_read? : ∀ {value : β} {room : Nat} {found : Option Written},
    read? room found = some value → (∀ json ∈ inside value, json.Integral) →
    (∀ json ∈ inside value, json.Proper) ∧
      ∀ written ∈ slot value, written.nesting ≤ max room least

/-- A part that is always written and has to be there. -/
def Part.required (α : Type) [Form α] [FreeForm α] [Legible α] [Solid α] : Part α where
  fields := field
  slot value := some (Legible.tree value)
  read? := required?
  inside := FreeForm.freeForm
  least := Legible.least α
  renders proper := .cons ⟨rfl, Legible.renders proper⟩ .nil
  read?_slot proper fits := Legible.read?_tree proper (fits _ rfl)
  proper_of_read? {value room found} read integral := by
    obtain ⟨written, rfl, readValue⟩ := Option.bind_eq_some_iff.1 read
    obtain ⟨proper, fits⟩ :=
      Legible.proper_of_read? readValue (ne_null_of_read? readValue) integral
    refine ⟨proper, ?_⟩
    rintro _ ⟨⟩
    exact fits

/-- A part that is left out when it is absent, and that may be missing or null. -/
def Part.optional (α : Type) [Form α] [FreeForm α] [Legible α] : Part (Option α) where
  fields := optionalField
  slot value := value.map Legible.tree
  read? := optional?
  inside := FreeForm.freeForm
  least := Legible.least α
  renders {name value} proper := by
    cases value with
    | none => exact .nil
    | some value =>
        refine .cons ⟨rfl, Legible.renders fun json inside => proper json ?_⟩ .nil
        exact List.mem_flatMap.2 ⟨value, List.mem_cons_self, inside⟩
  read?_slot {value room} proper fits := by
    cases value with
    | none => rfl
    | some value =>
        have properValue : ∀ json ∈ FreeForm.freeForm value, json.Proper := fun json inside =>
          proper json (List.mem_flatMap.2 ⟨value, List.mem_cons_self, inside⟩)
        rw [Option.map_some, optional?, Legible.read?_tree properValue (fits _ rfl),
          Option.map_some]
        exact fun same => Legible.tree_ne_null properValue same
  proper_of_read? {value room found} read integral := by
    unfold optional? at read
    split at read
    · cases read
      exact ⟨fun _ inside => absurd inside List.not_mem_nil, fun _ none => nomatch none⟩
    · cases read
      exact ⟨fun _ inside => absurd inside List.not_mem_nil, fun _ none => nomatch none⟩
    next written notNull =>
      obtain ⟨value, readValue, rfl⟩ := Option.map_eq_some_iff.1 read
      obtain ⟨proper, fits⟩ := Legible.proper_of_read? readValue (fun same => notNull same)
        fun json inside => integral json (List.mem_flatMap.2 ⟨value, List.mem_cons_self, inside⟩)
      refine ⟨fun json inside => ?_, ?_⟩
      · obtain ⟨other, member, inside⟩ := List.mem_flatMap.1 inside
        rw [List.mem_singleton.1 member] at inside
        exact proper json inside
      · rintro _ ⟨⟩
        exact fits

/-- A list that is always written and that may be missing. -/
def Part.defaulted (α : Type) [Form α] [FreeForm α] [Legible α] [Solid α] : Part (List α) where
  fields := field
  slot value := some (Legible.tree value)
  read? := defaulted? []
  inside := FreeForm.freeForm
  least := Legible.least (List α)
  renders proper := .cons ⟨rfl, Legible.renders proper⟩ .nil
  read?_slot proper fits := Legible.read?_tree proper (fits _ rfl)
  proper_of_read? {value room found} read integral := by
    cases found with
    | none =>
        cases read
        refine ⟨fun _ inside => absurd inside List.not_mem_nil, ?_⟩
        rintro _ ⟨⟩
        exact Nat.le_trans (Nat.succ_le_succ (Nat.zero_le _)) (Nat.le_max_right _ _)
    | some written =>
        have notNull : written ≠ .null := by
          rintro rfl
          cases room <;> cases read
        obtain ⟨proper, fits⟩ := Legible.proper_of_read? read notNull integral
        refine ⟨proper, ?_⟩
        rintro _ ⟨⟩
        exact fits

/-! ## Rows -/

/-- The parts of a record in order, each under its name. -/
inductive Row : Type → Type 1
  | nil : Row Unit
  | cons {β ρ : Type} (name : String) (part : Part β) (rest : Row ρ) : Row (β × ρ)

namespace Row

def names : {ρ : Type} → Row ρ → List String
  | _, nil => []
  | _, cons name _ rest => name :: rest.names

def fields : {ρ : Type} → Row ρ → ρ → List (String × Bytes)
  | _, nil, _ => []
  | _, cons name part rest, (value, others) => part.fields name value ++ rest.fields others

def slots : {ρ : Type} → Row ρ → ρ → List (Option Written)
  | _, nil, _ => []
  | _, cons _ part rest, (value, others) => part.slot value :: rest.slots others

def inside : {ρ : Type} → Row ρ → ρ → List Json
  | _, nil, _ => []
  | _, cons _ part rest, (value, others) => part.inside value ++ rest.inside others

def least : {ρ : Type} → Row ρ → Nat
  | _, nil => 0
  | _, cons _ part rest => max part.least rest.least

/-- Reads the parts of a row one after another, and goes on with all of them. -/
def build : {ρ : Type} → Row ρ → (room : Nat) → List (Option Written) → (ρ → Option α) → Option α
  | _, nil, _, [], next => next ()
  | _, nil, _, _ :: _, _ => none
  | _, cons .., _, [], _ => none
  | _, cons _ part rest, room, found :: others, next => do
      let value ← part.read? room found
      rest.build room others fun values => next (value, values)

end Row

/-- The fields of an object for those names that something stands for. -/
def named : List String → List (Option Written) → List (Option String × Written)
  | name :: names, slot :: slots =>
      (slot.toList.map fun written => (some name, written)) ++ named names slots
  | _, _ => []

namespace Row

variable {row : Row ρ} {values : ρ}

theorem length_slots (row : Row ρ) (values : ρ) : (row.slots values).length = row.names.length := by
  induction row with
  | nil => rfl
  | cons name part rest ih => exact congrArg (· + 1) (ih values.2)

theorem renders_fields (proper : ∀ json ∈ row.inside values, json.Proper) :
    List.Forall₂ RendersField (row.fields values) (named row.names (row.slots values)) := by
  induction row with
  | nil => exact .nil
  | cons name part rest ih =>
      exact List.rel_append
        (part.renders fun json inside => proper json (List.mem_append_left _ inside))
        (ih fun json inside => proper json (List.mem_append_right _ inside))

theorem build_slots (proper : ∀ json ∈ row.inside values, json.Proper)
    (fits : ∀ written, some written ∈ row.slots values → written.nesting ≤ room)
    (next : ρ → Option α) : row.build room (row.slots values) next = next values := by
  induction row with
  | nil => rfl
  | cons name part rest ih =>
      have read : part.read? room (part.slot values.1) = some values.1 :=
        part.read?_slot (fun json inside => proper json (List.mem_append_left _ inside))
          fun written among => fits written (among ▸ List.mem_cons_self)
      rw [slots, build, read]
      exact ih (fun json inside => proper json (List.mem_append_right _ inside))
        (fun written among => fits written (List.mem_cons_of_mem _ among)) _

/-- What is built comes from values that can be written and read again. -/
theorem exists_of_build {found : List (Option Written)} {next : ρ → Option α} {value : α}
    (built : row.build room found next = some value) : ∃ values, next values = some value ∧
      ((∀ json ∈ row.inside values, json.Integral) →
        (∀ json ∈ row.inside values, json.Proper) ∧
          ∀ written, some written ∈ row.slots values → written.nesting ≤ max room row.least) := by
  induction row generalizing found with
  | nil =>
      cases found with
      | nil => exact ⟨(), built, fun _ => ⟨fun _ inside => (nomatch inside), fun _ among => nomatch among⟩⟩
      | cons => cases built
  | cons name part rest ih =>
      cases found with
      | nil => cases built
      | cons found others =>
          obtain ⟨first, read, built⟩ := Option.bind_eq_some_iff.1 built
          obtain ⟨values, isNext, rest⟩ := ih built
          refine ⟨(first, values), isNext, fun integral => ?_⟩
          obtain ⟨proper, fits⟩ := part.proper_of_read? read fun json inside =>
            integral json (List.mem_append_left _ inside)
          obtain ⟨properRest, fitsRest⟩ := rest fun json inside =>
            integral json (List.mem_append_right _ inside)
          refine ⟨fun json inside => ?_, fun written among => ?_⟩
          · exact (List.mem_append.1 inside).elim (proper json) (properRest json)
          · rw [least]
            rcases List.mem_cons.1 among with same | among
            · have small := fits written same.symm
              omega
            · have small := fitsRest written among
              omega

end Row

/-! ## Objects -/

/-- A field that is named once is found. -/
theorem uniqueField?_of_filter {name : String} {fields : List (Option String × Written)}
    {found : Option Written}
    (only : (fields.filter fun field => field.1 == some name) =
      found.toList.map fun written => (some name, written)) :
    Written.uniqueField? name fields = some found := by
  rw [Written.uniqueField?, only]
  cases found <;> rfl

theorem filter_named_of_notMem {name : String} {names : List String} {slots : List (Option Written)}
    (other : name ∉ names) : ((named names slots).filter fun field => field.1 == some name) = [] := by
  induction names generalizing slots with
  | nil => rfl
  | cons first names ih =>
      obtain ⟨differs, later⟩ := List.ne_and_not_mem_of_not_mem_cons other
      cases slots with
      | nil => rfl
      | cons slot slots =>
          rw [named, List.filter_append, ih later, List.append_nil]
          cases slot with
          | none => rfl
          | some written => simp [Ne.symm differs]

/-- What stands for the parts of a record is found under their names. -/
theorem slots?_named {names : List String} {slots : List (Option Written)} (distinct : names.Nodup)
    (length : slots.length = names.length) :
    Written.slots? names (.object (named names slots)) = some slots := by
  have allNamed : (named names slots).all fun field => field.1.isSome := by
    clear distinct length
    induction names generalizing slots with
    | nil => rfl
    | cons name names ih =>
        cases slots with
        | nil => rfl
        | cons slot slots => cases slot <;> simp [named, ih]
  -- The fields before a name have other names, so they do not matter for what is found under it.
  have found : ∀ before : List (Option String × Written),
      (∀ name ∈ names, (before.filter fun field => field.1 == some name) = []) →
      List.Forall₂ (fun name slot =>
        Written.uniqueField? name (before ++ named names slots) = some slot) names slots := by
    clear allNamed
    induction names generalizing slots with
    | nil =>
        obtain rfl := List.eq_nil_of_length_eq_zero length
        exact fun _ _ => .nil
    | cons name names ih =>
        intro before others
        obtain ⟨notLater, distinct⟩ := List.nodup_cons.1 distinct
        cases slots with
        | nil => cases length
        | cons slot slots =>
            refine .cons (uniqueField?_of_filter ?_) ?_
            · rw [List.filter_append, others name List.mem_cons_self, List.nil_append, named,
                List.filter_append, filter_named_of_notMem notLater, List.append_nil]
              cases slot <;> simp
            · rw [named, ← List.append_assoc]
              refine ih distinct (Nat.succ.inj length) _ fun later member => ?_
              rw [List.filter_append, others later (List.mem_cons_of_mem _ member), List.nil_append]
              have differs : name ≠ later := fun same => notLater (same ▸ member)
              cases slot <;> simp [differs]
  rw [Written.slots?, if_pos allNamed]
  exact mapM_eq_some_iff.2 (found [] fun _ _ => rfl)

/-- Every name has its place among what is written for a record. -/
theorem length_of_slots? {names : List String} {slots : List (Option Written)}
    (found : Written.slots? names written = some slots) : slots.length = names.length := by
  unfold Written.slots? at found
  split at found
  next items =>
    split at found
    next fits =>
      cases found
      rw [List.length_append, List.length_map, List.length_replicate]
      omega
    next => cases found
  next fields =>
    split at found
    next => exact (mapM_eq_some_iff.1 found).length_eq.symm
    next => cases found
  next => cases found

theorem fieldsNesting_named {names : List String} {slots : List (Option Written)} {levels : Nat}
    (small : ∀ written, some written ∈ slots → written.nesting ≤ levels) :
    Written.fieldsNesting (named names slots) ≤ levels := by
  refine Written.fieldsNesting_le.2 fun field member => ?_
  induction names generalizing slots with
  | nil => nomatch member
  | cons name names ih =>
      cases slots with
      | nil => nomatch member
      | cons slot slots =>
          rcases List.mem_append.1 member with member | member
          · obtain ⟨written, among, rfl⟩ := List.mem_map.1 member
            exact small written (Option.mem_toList.1 among ▸ List.mem_cons_self)
          · exact ih (fun written among => small written (List.mem_cons_of_mem _ among)) member

theorem nesting_le_of_fieldsNesting {names : List String} {slots : List (Option Written)}
    {levels : Nat} (length : slots.length = names.length)
    (fits : Written.fieldsNesting (named names slots) ≤ levels) :
    ∀ written, some written ∈ slots → written.nesting ≤ levels := by
  intro written among
  induction names generalizing slots with
  | nil =>
      obtain rfl := List.eq_nil_of_length_eq_zero length
      nomatch among
  | cons name names ih =>
      cases slots with
      | nil => nomatch among
      | cons slot slots =>
          have each := Written.fieldsNesting_le.1 fits
          rcases List.mem_cons.1 among with rfl | among
          · exact each (some name, written) (List.mem_append_left _ List.mem_cons_self)
          · exact ih (Nat.succ.inj length)
              (Written.fieldsNesting_le.2 fun field member =>
                each field (List.mem_append_right _ member)) among

/-! ## Records -/

/-- How the values of a record and of its row correspond, and that the record is written and read
as its row is. -/
structure Layout (α ρ : Type) [Form α] [FreeForm α] where
  row : Row ρ
  distinct : row.names.Nodup := by decide
  toRow : α → ρ
  ofRow : ρ → α
  ofRow_toRow : ∀ value, ofRow (toRow value) = value := by intros; rfl
  toRow_ofRow : ∀ values, toRow (ofRow values) = values := by intros; rfl
  freeForm_eq : ∀ value, FreeForm.freeForm value = row.inside (toRow value) := by
    intros; simp [FreeForm.freeForm, Row.inside, Part.required, Part.optional, Part.defaulted]
  write_eq : ∀ value, Form.write value = writeObject (row.fields (toRow value)) := by
    intros; simp [Form.write, Row.fields, Part.required, Part.optional, Part.defaulted]
  build : Nat → List (Option Written) → Option α
  read?_eq : Form.read? = Written.record? row.names build
  build_eq : ∀ room slots, slots.length = row.names.length →
    build room slots = row.build room slots fun values => some (ofRow values)

namespace Layout

variable [Form α] [FreeForm α] (layout : Layout α ρ)

/-- The tree of a record. -/
def tree (value : α) : Written :=
  .object (named layout.row.names (layout.row.slots (layout.toRow value)))

theorem renders {value : α} (proper : ∀ json ∈ FreeForm.freeForm value, json.Proper) :
    Renders (Form.write value) (layout.tree value) := by
  rw [layout.freeForm_eq] at proper
  rw [layout.write_eq]
  exact renders_object (Row.renders_fields proper)

theorem read?_tree {value : α} (proper : ∀ json ∈ FreeForm.freeForm value, json.Proper)
    (fits : (layout.tree value).nesting ≤ room) :
    Form.read? room (layout.tree value) = some value := by
  rw [layout.freeForm_eq] at proper
  rw [tree, Written.nesting] at fits
  obtain ⟨room, rfl⟩ : ∃ less, room = less + 1 := ⟨room - 1, by omega⟩
  have length := Row.length_slots layout.row (layout.toRow value)
  have small := nesting_le_of_fieldsNesting length (Nat.le_of_succ_le_succ fits)
  rw [layout.read?_eq, tree, Written.record?, slots?_named layout.distinct length,
    Option.bind_some, layout.build_eq room _ length, Row.build_slots proper small,
    layout.ofRow_toRow]

theorem proper_of_read? {value : α} (read : Form.read? room written = some value)
    (integral : ∀ json ∈ FreeForm.freeForm value, json.Integral) :
    (∀ json ∈ FreeForm.freeForm value, json.Proper) ∧
      (layout.tree value).nesting ≤ max room (layout.row.least + 1) := by
  rw [layout.read?_eq] at read
  cases room with
  | zero => cases read
  | succ room =>
      obtain ⟨slots, found, built⟩ := Option.bind_eq_some_iff.1 read
      rw [layout.build_eq room slots (length_of_slots? found)] at built
      obtain ⟨values, same, kept⟩ := Row.exists_of_build built
      cases same
      rw [layout.freeForm_eq, layout.toRow_ofRow] at integral ⊢
      obtain ⟨proper, small⟩ := kept integral
      refine ⟨proper, ?_⟩
      rw [tree, layout.toRow_ofRow, Written.nesting]
      have within : Written.fieldsNesting (named layout.row.names (layout.row.slots values)) ≤
          max room layout.row.least := fieldsNesting_named small
      omega

/-- A record is legible when its parts are. -/
@[reducible] def legible : Legible α where
  tree := layout.tree
  least := layout.row.least + 1
  renders := layout.renders
  tree_ne_null _ := fun same => nomatch same
  read?_tree := layout.read?_tree
  proper_of_read? read _ := layout.proper_of_read? read

include layout in
theorem solid : Solid α where
  read?_null room := by
    rw [layout.read?_eq]
    cases room <;> rfl

end Layout

end Json

end ChainFollower
