import ChainFollower.Proofs.Store.Requests
import ChainFollower.Proofs.Store.Separators
import ChainFollower.Proofs.Store.Tally
import Mathlib.Algebra.Order.BigOperators.Group.List
import Mathlib.Algebra.Ring.Int.Defs

/-!
# Counters among the operations of a store

A database is shared between a block store and counters.  Whatever the store is asked in
between, and whether it is granted or not, the updates of a counter add up as if they were
made alone.
-/

namespace ChainFollower.Store

/-! ## Deeds -/

/-- What a store can be asked without a change. -/
inductive Question where
  | head
  | headBlock
  | block (id : BlockId)
  | blockAt (index : Int64)
  | recent
  | atTip (now delay : Int64)
  | findTransaction (hash : String)

/-- The computation that answers a question, whatever it finds. -/
def BlockStore.ask (store : BlockStore) : Question → Storing Unit
  | .head => (fun _ => ()) <$> head
  | .headBlock => (fun _ => ()) <$> headBlock
  | .block id => (fun _ => ()) <$> block id
  | .blockAt index => (fun _ => ()) <$> blockAt index
  | .recent => (fun _ => ()) <$> store.recent
  | .atTip now delay => (fun _ => ()) <$> atTip now delay
  | .findTransaction hash => (fun _ => ()) <$> findTransaction hash

/-- One use of a database that a block store and counters share. -/
inductive Deed where
  /-- Adds to a counter. -/
  | count (name : String) (delta : Int64)
  | serve (request : Request)
  | ask (question : Question)

namespace Shelf

/-- The shelf after a deed. -/
def perform (shelf : Shelf) : Deed → Shelf
  | .count name delta => (shelf.run (Counter.update name delta)).2
  | .serve request => (shelf.serve request).2
  | .ask question => (shelf.run (shelf.store.ask question)).2

/-- The shelf after deeds. -/
def after (shelf : Shelf) (deeds : List Deed) : Shelf :=
  deeds.foldl perform shelf

end Shelf

/-- The counter that a deed adds to, and how much. -/
def Deed.update? : Deed → Option (String × Int64)
  | .count name delta => some (name, delta)
  | .serve _ => none
  | .ask _ => none

/-- The updates among deeds. -/
def updates (deeds : List Deed) : List (String × Int64) :=
  deeds.filterMap Deed.update?

/-- What updates add to a counter, in order. -/
def growths (name : String) (updates : List (String × Int64)) : List Int :=
  (updates.filter fun update => update.1 = name).map fun update => update.2.toInt

/-- What an update of a counter returns, as a list of at most one result. -/
def Deed.returned (name : String) (shelf : Shelf) : Deed → List (Except SyncError Int64)
  | .count counter delta =>
      if counter = name then [shelf.answer (Counter.update counter delta)] else []
  | .serve _ => []
  | .ask _ => []

/-- What the updates of a counter return, in order. -/
def Shelf.returned (name : String) (shelf : Shelf) : List Deed → List (Except SyncError Int64)
  | [] => []
  | deed :: rest => deed.returned name shelf ++ (shelf.perform deed).returned name rest

/-- The value of a counter after growths; it stops at the greatest word. -/
def grown (value : Int) (growths : List Int) : Int :=
  min 9223372036854775807 (value + growths.sum)

/-- The beginnings of growths, but for the empty one. -/
theorem tail_inits_cons (growth : Int) (rest : List Int) :
    (growth :: rest).inits.tail = [growth] :: rest.inits.tail.map (growth :: ·) := by
  cases rest with
  | nil => rfl
  | cons next rest => simp

theorem sum_nonneg_of_mem_inits {growths part : List Int}
    (growing : ∀ growth ∈ growths, 0 ≤ growth) (member : part ∈ growths.inits) :
    0 ≤ part.sum :=
  List.sum_nonneg fun growth among => growing growth ((List.mem_inits ..).1 member |>.mem among)

/-- Values that grow never decrease. -/
theorem pairwise_grown (value : Int) {growths : List Int}
    (growing : ∀ growth ∈ growths, 0 ≤ growth) :
    (growths.inits.map (grown value)).Pairwise (· ≤ ·) := by
  induction growths generalizing value with
  | nil => exact List.pairwise_singleton _ _
  | cons growth rest ih =>
      have growingRest : ∀ later ∈ rest, 0 ≤ later := fun later member =>
        growing later (List.mem_cons_of_mem _ member)
      have shifted : (rest.inits.map (growth :: ·)).map (grown value) =
          rest.inits.map (grown (value + growth)) := by
        rw [List.map_map]
        refine List.map_congr_left fun part _ => ?_
        simp only [Function.comp_apply, grown, List.sum_cons, Int.add_assoc]
      rw [List.inits_cons, List.map_cons, shifted]
      refine List.pairwise_cons.2 ⟨fun later member => ?_, ih _ growingRest⟩
      obtain ⟨part, among, rfl⟩ := List.mem_map.1 member
      have natural := sum_nonneg_of_mem_inits growingRest among
      have first := growing growth List.mem_cons_self
      simp only [grown, List.sum_nil]
      omega

/-- Growths after a first one are those after what it makes of the value. -/
theorem grown_cons (value : Int) (growth : Int) {rest : List Int} (natural : 0 ≤ rest.sum) :
    grown value (growth :: rest) = grown (grown value [growth]) rest := by
  simp only [grown, List.sum_cons, List.sum_nil]
  omega

theorem toInt_add_eq_grown {word delta : Int64} (natural : 0 ≤ word) (growing : 0 ≤ delta) :
    (Saturating.add word delta).toInt = grown word.toInt [delta.toInt] := by
  have wordNatural : 0 ≤ word.toInt := Int64.le_iff_toInt_le.1 natural
  have deltaNatural : 0 ≤ delta.toInt := Int64.le_iff_toInt_le.1 growing
  rw [Saturating.toInt_add, grown, List.sum_singleton]
  omega

/-- A word that counts from the growths on. -/
theorem natural_add {word delta : Int64} (natural : 0 ≤ word) (growing : 0 ≤ delta) :
    0 ≤ Saturating.add word delta := by
  have wordNatural : 0 ≤ word.toInt := Int64.le_iff_toInt_le.1 natural
  have deltaNatural : 0 ≤ delta.toInt := Int64.le_iff_toInt_le.1 growing
  refine Int64.le_iff_toInt_le.2 ?_
  rw [Saturating.toInt_add, Int64.toInt_zero]
  omega

/-- An update adds its delta to its counter. -/
theorem growths_count (name : String) (delta : Int64) (rest : List Deed) :
    growths name (updates (.count name delta :: rest)) =
      delta.toInt :: growths name (updates rest) := by
  simp [growths, updates, Deed.update?]

/-- Other deeds add nothing to it. -/
theorem growths_other {name : String} {deed : Deed}
    (other : ∀ delta, deed.update? ≠ some (name, delta)) (rest : List Deed) :
    growths name (updates (deed :: rest)) = growths name (updates rest) := by
  cases deed with
  | count counter delta =>
      have different : counter ≠ name := fun same => other delta (same ▸ rfl)
      simp [growths, updates, Deed.update?, different]
  | serve request | ask question => rfl

theorem Deed.returned_other {name : String} {deed : Deed}
    (other : ∀ delta, deed.update? ≠ some (name, delta)) (shelf : Shelf) :
    deed.returned name shelf = [] := by
  cases deed with
  | count counter delta => exact if_neg fun same : counter = name => other delta (same ▸ rfl)
  | serve request | ask question => rfl

theorem Deed.eq_count {name : String} {delta : Int64} {deed : Deed}
    (update : deed.update? = some (name, delta)) : deed = .count name delta := by
  cases deed with
  | count counter other =>
      cases update
      rfl
  | serve request | ask question => nomatch update

/-- Growths of a counter whose updates add nothing negative. -/
theorem natural_of_mem_growths {name : String} {updates : List (String × Int64)}
    (growing : ∀ update ∈ updates, update.1 = name → 0 ≤ update.2) {growth : Int}
    (member : growth ∈ growths name updates) : 0 ≤ growth := by
  obtain ⟨⟨counter, delta⟩, among, rfl⟩ := List.mem_map.1 member
  obtain ⟨counted, same⟩ := List.mem_filter.1 among
  obtain rfl : counter = name := of_decide_eq_true same
  exact Int64.le_iff_toInt_le.1 (growing _ counted rfl)

/-! ## What a deed leaves alone -/

namespace BlockStore

/-- An answer changes nothing. -/
theorem ends_ask {fault : Nat → Access → Option String} {before : Database} (store : BlockStore)
    (question : Question) : Ends fault (store.ask question) before (Untouched before) := by
  cases question with
  | head => exact .map ends_head
  | headBlock => exact .map ends_headBlock
  | block id => exact .map ((ends_block id).weaken fun _ _ outcome => outcome.1)
  | blockAt index => exact .map (ends_blockAt index)
  | recent => exact .map store.ends_recent
  | atTip now delay => exact .map (ends_atTip now delay)
  | findTransaction hash => exact .map (ends_findTransaction hash)

end BlockStore

namespace Shelf

variable {α : Type} {shelf : Shelf}

/-- What a computation can end with holds of the shelf after it, on which the same accesses
fail. -/
theorem run_outcome {act : Storing α} {Outcome : Except SyncError α → Database → Prop}
    (ends : Ends shelf.session.fault act shelf.session.database Outcome) :
    Outcome (shelf.run act).1 (shelf.run act).2.session.database ∧
      (shelf.run act).2.session.fault = shelf.session.fault := by
  obtain ⟨result, after, accesses, ran, outcome⟩ := run_of_ends ends
  rw [ran]
  exact ⟨outcome, rfl⟩

/-- An update changes the entry of its counter only. -/
theorem perform_count (shelf : Shelf) (name : String) (delta : Int64) {key : Bytes}
    (other : key ≠ (Key.counter name).bytes) :
    (shelf.perform (.count name delta)).session.database.get? key =
      shelf.session.database.get? key := by
  obtain ⟨outcome, -⟩ := run_outcome (Counter.ends_update name delta)
  rw [perform]
  rcases outcome with same | ⟨value, inserted⟩
  · rw [same]
  · rw [inserted, Database.get?_insert, if_neg other]

/-- Granted or refused, a request changes no counter. -/
theorem counter_serve (modest : shelf.store.Modest) (request : Request) (name : String) :
    (shelf.serve request).2.session.database.get? (Key.counter name).bytes =
      shelf.session.database.get? (Key.counter name).bytes := by
  cases request with
  | prepare workers => rfl
  | add block => exact (run_outcome (shelf.store.ends_add block)).1.counter modest name
  | remove id => exact (run_outcome (shelf.store.ends_remove id)).1.counter modest name
  | setStart start =>
      have ends : Ends shelf.session.fault (shelf.store.setStart start) shelf.session.database
          fun _ after => after.get? (Key.counter name).bytes =
            shelf.session.database.get? (Key.counter name).bytes :=
        BlockStore.ends_setStart
          (fun _ _ _ kept removed => (removed.counter modest name).trans kept) start rfl
      exact (run_outcome ends).1

/-- A question changes nothing. -/
theorem perform_ask (shelf : Shelf) (question : Question) :
    (shelf.perform (.ask question)).session.database = shelf.session.database :=
  (run_outcome (shelf.store.ends_ask question)).1

/-- After a deed, the same accesses fail as before. -/
theorem fault_perform (shelf : Shelf) (deed : Deed) :
    (shelf.perform deed).session.fault = shelf.session.fault := by
  cases deed with
  | count name delta => exact (run_outcome (Counter.ends_update name delta)).2
  | ask question => exact (run_outcome (shelf.store.ends_ask question)).2
  | serve request =>
      cases request with
      | prepare workers => rfl
      | add block => exact (run_outcome (shelf.store.ends_add block)).2
      | remove id => exact (run_outcome (shelf.store.ends_remove id)).2
      | setStart start =>
          have ends : Ends shelf.session.fault (shelf.store.setStart start)
              shelf.session.database fun _ _ => True :=
            BlockStore.ends_setStart (fun _ _ _ _ _ => trivial) start trivial
          exact (run_outcome ends).2

/-- No access of a counter fails, and the workers leave counters alone. -/
structure Quiet (shelf : Shelf) : Prop where
  answers : ∀ number request, Access.OfCounter request →
    shelf.session.fault number request = none
  modest : shelf.store.Modest

end Shelf

/-- The workers that a deed sets leave counters alone. -/
def Deed.Modest : Deed → Prop
  | .count _ _ => True
  | .serve (.prepare workers) => ∀ worker ∈ workers, worker.Modest
  | .serve _ => True
  | .ask _ => True

/-! ## One deed after another -/

namespace Shelf.Quiet

variable {shelf : Shelf} {name : String} {word : Int64} {deeds : List Deed}

theorem perform (quiet : shelf.Quiet) {deed : Deed} (modest : deed.Modest) :
    (shelf.perform deed).Quiet := by
  constructor
  · rw [fault_perform]
    exact quiet.answers
  · cases deed with
    | count name delta => rw [Shelf.perform, store_run]; exact quiet.modest
    | ask question => rw [Shelf.perform, store_run]; exact quiet.modest
    | serve request =>
        cases request with
        | prepare workers => exact modest
        | add block => rw [Shelf.perform, serve, store_run]; exact quiet.modest
        | remove id => rw [Shelf.perform, serve, store_run]; exact quiet.modest
        | setStart start => rw [Shelf.perform, serve, store_run]; exact quiet.modest

theorem after (quiet : shelf.Quiet) (modest : ∀ deed ∈ deeds, deed.Modest) :
    (shelf.after deeds).Quiet := by
  induction deeds generalizing shelf with
  | nil => exact quiet
  | cons deed rest ih =>
      exact ih (quiet.perform (modest deed List.mem_cons_self)) fun later member =>
        modest later (List.mem_cons_of_mem _ member)

/-- Deeds other than updates change no counter. -/
theorem counter_perform (quiet : shelf.Quiet) {deed : Deed} (silent : deed.update? = none)
    (name : String) : (shelf.perform deed).session.database.get? (Key.counter name).bytes =
      shelf.session.database.get? (Key.counter name).bytes := by
  cases deed with
  | count counter delta => nomatch silent
  | serve request => exact counter_serve quiet.modest request name
  | ask question => rw [perform_ask]

/-- A counter that can be read is found. -/
theorem answer_get (quiet : shelf.Quiet)
    (stored : Counter.value? shelf.session.database name = some word) :
    shelf.answer (Counter.get name) = .ok word :=
  (run_outcome (Counter.ends_get_of_value? quiet.answers stored)).1.2

/-- The update of a counter that can be read returns the sum and stores it. -/
theorem count (quiet : shelf.Quiet)
    (stored : Counter.value? shelf.session.database name = some word) (delta : Int64) :
    shelf.answer (Counter.update name delta) = .ok (Saturating.add word delta) ∧
      Counter.value? (shelf.perform (.count name delta)).session.database name =
        some (Saturating.add word delta) := by
  obtain ⟨⟨returned, inserted⟩, -⟩ :=
    run_outcome (Counter.ends_update_of_value? quiet.answers stored delta)
  refine ⟨returned, ?_⟩
  rw [Shelf.perform, inserted, Counter.value?_insert, if_pos rfl]

/-- Other deeds leave what the counter reads. -/
theorem value?_perform (quiet : shelf.Quiet) {deed : Deed}
    (other : ∀ delta, deed.update? ≠ some (name, delta)) :
    Counter.value? (shelf.perform deed).session.database name =
      Counter.value? shelf.session.database name := by
  have same : (shelf.perform deed).session.database.get? (Key.counter name).bytes =
      shelf.session.database.get? (Key.counter name).bytes := by
    cases update : deed.update? with
    | none => exact quiet.counter_perform update name
    | some counted =>
        cases deed with
        | count counter delta =>
            refine perform_count shelf counter delta fun keys => other delta ?_
            rw [Key.counter_bytes_inj.1 keys]
            rfl
        | serve request => nomatch update
        | ask question => nomatch update
  rw [Counter.value?, same, Counter.value?]

/-- The updates of a counter return its growing values one after another, and leave the last. -/
theorem returned_eq (quiet : shelf.Quiet) (modest : ∀ deed ∈ deeds, deed.Modest)
    (stored : Counter.value? shelf.session.database name = some word) (natural : 0 ≤ word)
    (growing : ∀ update ∈ updates deeds, update.1 = name → 0 ≤ update.2) :
    ∃ (results : List Int64) (final : Int64),
      shelf.returned name deeds = results.map Except.ok ∧
      results.map Int64.toInt =
        (growths name (updates deeds)).inits.tail.map (grown word.toInt) ∧
      Counter.value? (shelf.after deeds).session.database name = some final ∧
      final.toInt = grown word.toInt (growths name (updates deeds)) := by
  induction deeds generalizing shelf word with
  | nil =>
      refine ⟨[], word, rfl, rfl, stored, ?_⟩
      have bounded := Words.toInt_lt word
      simp only [updates, List.filterMap_nil, growths, List.filter_nil, List.map_nil, grown,
        List.sum_nil]
      omega
  | cons deed rest ih =>
      have quietAfter := quiet.perform (modest deed List.mem_cons_self)
      have modestRest : ∀ later ∈ rest, later.Modest := fun later member =>
        modest later (List.mem_cons_of_mem _ member)
      have growingRest : ∀ update ∈ updates rest, update.1 = name → 0 ≤ update.2 := by
        intro update member
        obtain ⟨later, among, same⟩ := List.mem_filterMap.1 member
        exact growing update (List.mem_filterMap.2 ⟨later, List.mem_cons_of_mem _ among, same⟩)
      by_cases counted : ∃ delta, deed.update? = some (name, delta)
      · obtain ⟨delta, update⟩ := counted
        obtain rfl := Deed.eq_count update
        have positive : 0 ≤ delta := growing (name, delta) List.mem_cons_self rfl
        obtain ⟨answer, storedAfter⟩ := quiet.count stored delta
        obtain ⟨results, final, returns, values, storedLast, last⟩ :=
          ih quietAfter modestRest storedAfter (natural_add natural positive) growingRest
        have sum := toInt_add_eq_grown natural positive
        rw [sum] at values last
        refine ⟨Saturating.add word delta :: results, final, ?_, ?_, storedLast, ?_⟩
        · rw [Shelf.returned, Deed.returned, if_pos rfl, answer, returns]
          rfl
        · rw [growths_count, tail_inits_cons, List.map_cons, List.map_cons, List.map_map, sum,
            values]
          refine congrArg _ (List.map_congr_left fun part member => ?_)
          have growths := sum_nonneg_of_mem_inits
            (fun _ => natural_of_mem_growths growingRest) (List.mem_of_mem_tail member)
          exact (grown_cons _ _ growths).symm
        · rw [growths_count, grown_cons, last]
          exact List.sum_nonneg fun _ => natural_of_mem_growths growingRest
      · have other : ∀ delta, deed.update? ≠ some (name, delta) := not_exists.1 counted
        rw [Shelf.returned, Deed.returned_other other, growths_other other]
        exact ih quietAfter modestRest ((quiet.value?_perform other).trans stored) natural
          growingRest

/-- An entry that is no counter makes its update fail, and is left as it is. -/
theorem count_odd (quiet : shelf.Quiet) {bytes : Bytes}
    (stored : shelf.session.database.get? (Key.counter name).bytes = some bytes)
    (odd : bytes.length ≠ 8) (delta : Int64) :
    shelf.answer (Counter.update name delta) = .error (.storage (.corruption
        ("counter " ++ name ++ " has " ++ toString bytes.length ++ " bytes"))) ∧
      (shelf.perform (.count name delta)).session.database = shelf.session.database := by
  obtain ⟨⟨same, failed⟩, -⟩ :=
    run_outcome (Counter.ends_update_of_length_ne quiet.answers stored odd delta)
  exact ⟨failed, same⟩

end Shelf.Quiet

/-- The order of updates does not matter for what they amount to. -/
theorem grown_perm {first second : List (String × Int64)} (same : first.Perm second)
    (name : String) (value : Int) : grown value (growths name first) =
      grown value (growths name second) := by
  have growthsSame : (growths name first).Perm (growths name second) := (same.filter _).map _
  rw [grown, grown, growthsSame.sum_eq]

/-- Counters lose no update and touch nothing else.  Whatever a block store is asked in between,
the updates of a counter that add nothing negative return its growing value and leave the sum of
all, up to the greatest word, in whatever order they are made.  An update leaves every other entry
as it is, and its own as well if that is no counter; nothing else changes a counter. -/
theorem counters_lose_nothing {shelf : Shelf} {deeds : List Deed} (quiet : shelf.Quiet)
    (modest : ∀ deed ∈ deeds, deed.Modest) :
    (∀ name word, Counter.value? shelf.session.database name = some word → 0 ≤ word →
      (∀ update ∈ updates deeds, update.1 = name → 0 ≤ update.2) →
      (∃ results : List Int64, shelf.returned name deeds = results.map Except.ok ∧
        results.map Int64.toInt =
          (growths name (updates deeds)).inits.tail.map (grown word.toInt) ∧
        results.Pairwise (· ≤ ·)) ∧
      ∃ final : Int64,
        final.toInt = min 9223372036854775807 (word.toInt + (growths name (updates deeds)).sum) ∧
        (shelf.after deeds).answer (Counter.get name) = .ok final ∧
        ∀ others, (∀ deed ∈ others, deed.Modest) → (updates others).Perm (updates deeds) →
          (shelf.after others).answer (Counter.get name) = .ok final) ∧
    ∀ earlier deed later, deeds = earlier ++ deed :: later →
      let before := shelf.after earlier
      let after := before.perform deed
      (deed.update? = none → ∀ name, after.session.database.get? (Key.counter name).bytes =
        before.session.database.get? (Key.counter name).bytes) ∧
      ∀ name delta, deed.update? = some (name, delta) →
        (∀ key : Bytes, key ≠ (Key.counter name).bytes →
          after.session.database.get? key = before.session.database.get? key) ∧
        (∀ key : Key, key ≠ .counter name →
          after.session.database.get? key.bytes = before.session.database.get? key.bytes) ∧
        ∀ bytes, before.session.database.get? (Key.counter name).bytes = some bytes →
          bytes.length ≠ 8 →
          before.answer (Counter.update name delta) = .error (.storage (.corruption
            ("counter " ++ name ++ " has " ++ toString bytes.length ++ " bytes"))) ∧
          after.session.database = before.session.database := by
  constructor
  · intro name word stored natural growing
    obtain ⟨results, final, returns, values, storedLast, last⟩ :=
      quiet.returned_eq modest stored natural growing
    have rising : (results.map Int64.toInt).Pairwise (· ≤ ·) := by
      rw [values]
      exact ((pairwise_grown word.toInt fun _ => natural_of_mem_growths growing).sublist
        ((List.tail_sublist _).map _))
    refine ⟨⟨results, returns, values, ?_⟩, final, last, ?_, ?_⟩
    · exact (List.pairwise_map.1 rising).imp Int64.le_iff_toInt_le.2
    · exact (quiet.after modest).answer_get storedLast
    · intro others modestOthers permuted
      obtain ⟨-, other, -, -, storedOther, lastOther⟩ := quiet.returned_eq modestOthers stored
        natural fun update member => growing update (permuted.mem_iff.1 member)
      rw [grown_perm permuted, ← last, Int64.toInt_inj] at lastOther
      rw [(quiet.after modestOthers).answer_get storedOther, lastOther]
  · intro earlier deed later split before after
    have quietBefore : before.Quiet := quiet.after fun early member =>
      modest early (split ▸ List.mem_append_left _ member)
    refine ⟨fun silent => quietBefore.counter_perform silent, fun name delta update => ?_⟩
    obtain rfl := Deed.eq_count update
    refine ⟨fun key other => before.perform_count name delta other,
      fun key other => before.perform_count name delta fun same => ?_,
      fun bytes stored odd => quietBefore.count_odd stored odd delta⟩
    rcases Key.eq_or_transactions same with equal | ⟨_, _, _, _, -, none, -⟩
    · exact other equal
    · nomatch none

/-! ## A busy store -/

/-- A durable store with the transaction index, and an entry of one byte among the counters. -/
def busyShelf : Shelf :=
  ⟨⟨[Worker.transactionIndex], BlockStore.defaultCacheSize⟩,
    .reliable ((Database.empty .durable).insert (Key.counter "odd").bytes [1])⟩

/-- Two counters are added to while a block comes and goes; one of them runs full. -/
def busyDeeds : List Deed :=
  [.count "blocks" 3, .serve (.add firstBlock), .count "operations" 9223372036854775800,
    .ask .headBlock, .count "odd" 1, .serve (.setStart 0), .count "operations" 9,
    .serve (.add firstBlock), .count "blocks" 4]

/-- The updates add up, and the odd entry refuses its own. -/
theorem counters_lose_nothing_busyDeeds :
    (∃ final : Int64, final.toInt = 7 ∧
      (busyShelf.after busyDeeds).answer (Counter.get "blocks") = .ok final) ∧
    (∃ final : Int64, final.toInt = 9223372036854775807 ∧
      (busyShelf.after busyDeeds).answer (Counter.get "operations") = .ok final) ∧
    (busyShelf.after (busyDeeds.take 4)).answer (Counter.update "odd" 1) =
      .error (.storage (.corruption "counter odd has 1 bytes")) := by
  have modestStore : busyShelf.store.Modest := by
    intro worker member
    rw [List.mem_singleton.1 member]
    exact Worker.modest_transactionIndex
  have quiet : busyShelf.Quiet := ⟨fun _ _ _ => rfl, modestStore⟩
  have modest : ∀ deed ∈ busyDeeds, deed.Modest := by
    simp only [busyDeeds, List.forall_mem_cons, Deed.Modest, List.not_mem_nil, false_implies,
      implies_true, and_self]
  obtain ⟨sums, frames⟩ := counters_lose_nothing quiet modest
  refine ⟨?_, ?_, ?_⟩
  · obtain ⟨-, final, value, found, -⟩ := sums "blocks" 0 (by decide +kernel) (by decide)
      (by decide +kernel)
    exact ⟨final, value.trans (by decide +kernel), found⟩
  · obtain ⟨-, final, value, found, -⟩ := sums "operations" 0 (by decide +kernel) (by decide)
      (by decide +kernel)
    exact ⟨final, value.trans (by decide +kernel), found⟩
  · have failed := (frames (busyDeeds.take 4) (.count "odd" 1) (busyDeeds.drop 5) rfl).2 "odd" 1 rfl
    exact (failed.2.2 [1] (by decide +kernel) (by decide)).1

end ChainFollower.Store
