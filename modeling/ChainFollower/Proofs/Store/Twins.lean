import ChainFollower.Proofs.Store.Composition
import ChainFollower.Proofs.Store.Tally

/-!
# Sessions that differ in counters

Two sessions are twins when their entries are the same but for counters, and from now on the
same accesses fail but for those of counters.  Whatever the block store does, it does alike in
twins, and it leaves them twins.  Only a rewind looks at all entries, counters included: it
counts them to bound its removals, and the blocks run out before the bound is reached.
-/

namespace ChainFollower.Store

variable {α β : Type} {first second : Nat → Access → Option String} {left right : Session}

/-- Sessions in which accesses fail as given, and which differ in counters only. -/
structure Twins (first second : Nat → Access → Option String) (left right : Session) : Prop where
  faultLeft : left.fault = first
  faultRight : right.fault = second
  entries : SameEntries left.database right.database
  fault : ∀ number request, ¬request.OfCounter →
    first (left.accesses + number) request = second (right.accesses + number) request

namespace Twins

theorem refl (session : Session) : Twins session.fault session.fault session session :=
  ⟨rfl, rfl, fun _ _ => rfl, fun _ _ _ => rfl⟩

theorem symm (twins : Twins first second left right) : Twins second first right left :=
  ⟨twins.faultRight, twins.faultLeft, twins.entries.symm,
    fun number request other => (twins.fault number request other).symm⟩

theorem trans {third : Nat → Access → Option String} {last : Session}
    (twins : Twins first second left right) (more : Twins second third right last) :
    Twins first third left last :=
  ⟨twins.faultLeft, more.faultRight, twins.entries.trans more.entries,
    fun number request other =>
      (twins.fault number request other).trans (more.fault number request other)⟩

/-- Twins after an access in both. -/
theorem accessed (twins : Twins first second left right) {leftAfter rightAfter : Database}
    (entries : SameEntries leftAfter rightAfter) :
    Twins first second ⟨leftAfter, left.accesses + 1, left.fault⟩
      ⟨rightAfter, right.accesses + 1, right.fault⟩ where
  faultLeft := twins.faultLeft
  faultRight := twins.faultRight
  entries := entries
  fault number request other := by
    have later := twins.fault (1 + number) request other
    rw [← Nat.add_assoc, ← Nat.add_assoc] at later
    exact later

end Twins

/-! ## Blind computations -/

/-- A computation that goes the same way in twins, and leaves them twins. -/
def Blind (first second : Nat → Access → Option String) (act : Storing α) : Prop :=
  ∀ left right, Twins first second left right → ∃ result leftAfter rightAfter,
    act left = ending result leftAfter ∧ act right = ending result rightAfter ∧
      Twins first second leftAfter rightAfter

namespace Blind

variable {act : Storing α}

theorem pure (value : α) : Blind first second (pure value) :=
  fun left right twins => ⟨.ok value, left, right, rfl, rfl, twins⟩

theorem throw_bind (error : SyncError) (next : α → Storing β) :
    Blind first second ((throw error : Storing α) >>= next) :=
  fun left right twins => ⟨.error error, left, right, rfl, rfl, twins⟩

theorem throw (error : SyncError) : Blind first second (throw error : Storing α) :=
  fun left right twins => ⟨.error error, left, right, rfl, rfl, twins⟩

theorem bind {next : α → Storing β} (blind : Blind first second act)
    (blindNext : ∀ value, Blind first second (next value)) :
    Blind first second (act >>= next) := by
  intro left right twins
  obtain ⟨result, leftBetween, rightBetween, ranLeft, ranRight, between⟩ := blind left right twins
  cases result with
  | error error =>
      refine ⟨.error error, leftBetween, rightBetween, ?_, ?_, between⟩
      · simp only [Bind.bind, EStateM.bind, ranLeft, ending]
      · simp only [Bind.bind, EStateM.bind, ranRight, ending]
  | ok value =>
      obtain ⟨result, leftAfter, rightAfter, endedLeft, endedRight, after⟩ :=
        blindNext value leftBetween rightBetween between
      refine ⟨result, leftAfter, rightAfter, ?_, ?_, after⟩
      · simp only [Bind.bind, EStateM.bind, ranLeft, ending, endedLeft]
      · simp only [Bind.bind, EStateM.bind, ranRight, ending, endedRight]

theorem tryCatch {handle : SyncError → Storing α} (blind : Blind first second act)
    (blindHandle : ∀ error, Blind first second (handle error)) :
    Blind first second (tryCatch act handle) := by
  intro left right twins
  obtain ⟨result, leftBetween, rightBetween, ranLeft, ranRight, between⟩ := blind left right twins
  change ∃ result leftAfter rightAfter, EStateM.tryCatch act handle left = _ ∧
    EStateM.tryCatch act handle right = _ ∧ _
  delta EStateM.tryCatch
  cases result with
  | ok value =>
      refine ⟨.ok value, leftBetween, rightBetween, ?_, ?_, between⟩
      · simp only [ranLeft, ending]
      · simp only [ranRight, ending]
  | error error =>
      obtain ⟨result, leftAfter, rightAfter, endedLeft, endedRight, after⟩ :=
        blindHandle error leftBetween rightBetween between
      refine ⟨result, leftAfter, rightAfter, ?_, ?_, after⟩
      · rw [← endedLeft]
        simp only [ranLeft, ending]
        rfl
      · rw [← endedRight]
        simp only [ranRight, ending]
        rfl

/-- An access that is not of a counter, and acts alike on databases that differ in counters
only. -/
theorem access {request : Access} {act : Database → α × Database} (other : ¬request.OfCounter)
    (alike : ∀ left right, SameEntries left right →
      (act left).1 = (act right).1 ∧ SameEntries (act left).2 (act right).2) :
    Blind first second (Session.access request act) := by
  intro left right twins
  have same : left.fault left.accesses request = right.fault right.accesses request := by
    rw [twins.faultLeft, twins.faultRight]
    exact twins.fault 0 request other
  obtain ⟨result, entries⟩ := alike left.database right.database twins.entries
  unfold Session.access
  dsimp only
  rw [same, result]
  cases right.fault right.accesses request with
  | some text =>
      exact ⟨.error _, _, _, rfl, rfl, twins.accessed twins.entries⟩
  | none => exact ⟨.ok _, _, _, rfl, rfl, twins.accessed entries⟩

theorem get? {key : Bytes} (other : ∀ name, key ≠ (Key.counter name).bytes) :
    Blind first second (Session.get? key) := by
  apply access
  · rintro ⟨name, same⟩
    exact other name same
  · intro left right entries
    exact ⟨entries key other, entries⟩

theorem write (batch : Batch) : Blind first second (Session.write batch) := by
  apply access
  · exact id
  · intro left right entries
    refine ⟨rfl, fun key other => ?_⟩
    rw [Database.get?_write, Database.get?_write, entries key other]

end Blind

/-- Composed computations are blind. -/
theorem Composed.blind {act : Storing α} (composed : Composed (fun _ => True) act) :
    Blind first second act := by
  induction composed with
  | pure value => exact .pure value
  | throw raised => exact .throw _
  | get? other => exact .get? other
  | write batch => exact .write batch
  | bind _ _ ihFirst ihRest => exact ihFirst.bind ihRest
  | rescue _ _ _ ihFirst ihRest => exact ihFirst.tryCatch fun error => ihRest error trivial

/-! ## The block store -/

namespace BlockStore

theorem blind_head : Blind first second head :=
  (composed_head fun _ _ => trivial).blind

theorem blind_head? : Blind first second head? :=
  (composed_head? fun _ _ => trivial).blind

theorem blind_makeRoom (store : BlockStore) : Blind first second store.makeRoom := by
  unfold makeRoom
  split
  · exact .pure ()
  · exact .throw _

theorem blind_recent (store : BlockStore) : Blind first second store.recent := by
  unfold recent
  apply Blind.bind
  · exact blind_head?.tryCatch fun error => .pure none
  · intro found
    cases found with
    | none => exact .pure []
    | some head =>
        apply (blind_makeRoom store).bind
        intro room
        exact (composed_blocksFrom (fun _ _ => trivial) _ _).blind.tryCatch fun error => .pure []

theorem blind_add (store : BlockStore) (block : Block) : Blind first second (store.add block) :=
  (composed_add (fun _ _ => trivial) block fun _ _ _ _ _ => trivial).blind

theorem blind_remove (store : BlockStore) (id : BlockId) :
    Blind first second (store.remove id) :=
  (composed_remove (fun _ _ => trivial) id fun _ _ _ _ _ _ => trivial).blind

/-- A new start goes the same way however many counters there are. -/
theorem blind_setStart {store : BlockStore} (modest : store.Modest) (start : Int64) :
    Blind first second (store.setStart start) := by
  have rewound (head : BlockId) : Blind first second
      (do
        let session ← get
        store.rewind start (session.database.size + 1) head) := by
    intro left right twins
    change ∃ result leftAfter rightAfter,
      store.rewind start (left.database.size + 1) head left = _ ∧
        store.rewind start (right.database.size + 1) head right = _ ∧ _
    rw [← rewind_add modest start (Nat.lt_succ_of_le left.database.blockCount_le_size)
        (right.database.size + 1),
      ← rewind_add modest start (Nat.lt_succ_of_le right.database.blockCount_le_size)
        (left.database.size + 1), Nat.add_comm (right.database.size + 1)]
    exact (composed_rewind (fun _ _ => trivial) start _ head fun _ _ _ _ _ _ => trivial).blind
      left right twins
  unfold setStart
  split
  · exact .throw_bind _ _
  · apply blind_head?.bind
    intro found
    cases found with
    | none => exact .pure ()
    | some head =>
        dsimp only
        split
        · exact .throw_bind _ _
        · exact rewound head

end BlockStore

end ChainFollower.Store
