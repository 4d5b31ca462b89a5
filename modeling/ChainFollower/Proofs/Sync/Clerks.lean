import ChainFollower.Proofs.Store.Twins
import ChainFollower.Proofs.Sync.Accounts
import ChainFollower.Proofs.Sync.Pairs
import ChainFollower.Sync.Network

/-!
# Clerks

A clerk keeps the event log and the counters of a follower.  Whatever it does, succeeds in or
fails to do, it leaves the block store alone, with what the database holds for it.  Nothing in a
run depends on the clerk: neither which requests are sent, be their answers taken up or not, nor
what is added and taken back, nor how the run ends, nor what it leaves in the database apart from
counters.
-/

namespace ChainFollower.Sync

open Store (Access BlockStore Blind Counter.update Key Session Storing Twins Worker)

variable {ε ρ τ α : Type}

/-! ## Offices -/

/-- What a run acts on: what is outside, the books, and what else the clerk has. -/
structure Office (ε ρ : Type) where
  outside : ε
  books : Books
  records : ρ

/-- What a run meets in an office. -/
def Surroundings.office (around : Surroundings ε) : Surroundings (Office ε ρ) where
  cancelled office := around.cancelled office.outside
  status office :=
    let (answer, outside) := around.status office.outside
    (answer, { office with outside })
  block index ahead office :=
    let (answer, outside) := around.block index ahead office.outside
    (answer, { office with outside })
  rest span office := { office with outside := around.rest span office.outside }

/-- Books that are the same to the block store. -/
structure Books.Aside (fault : Nat → Access → Option String) (before after : Books) : Prop where
  store : before.store = after.store
  session : Twins fault fault before.session after.session

/-- Who keeps the event log and the counters, where accesses of the block store fail as given. -/
structure Clerk (fault : Nat → Access → Option String) (ρ : Type) where
  logAddition : Block → Books × ρ → Except SyncError Unit × Books × ρ
  logRemoval : BlockId → Books × ρ → Except SyncError Unit × Books × ρ
  count : String → Int64 → Books × ρ → Except SyncError Int64 × Books × ρ
  aside_logAddition : ∀ block (desk : Books × ρ), desk.1.session.fault = fault →
    desk.1.Aside fault (logAddition block desk).2.1
  aside_logRemoval : ∀ id (desk : Books × ρ), desk.1.session.fault = fault →
    desk.1.Aside fault (logRemoval id desk).2.1
  aside_count : ∀ name delta (desk : Books × ρ), desk.1.session.fault = fault →
    desk.1.Aside fault (count name delta desk).2.1

namespace Office

/-- The books and the records of an office. -/
def desk (office : Office ε ρ) : Books × ρ :=
  (office.books, office.records)

/-- The office after the block store has been at work; meanwhile the world outside goes on. -/
def stored (meanwhile : ε → ε) (office : Office ε ρ) (books : Books) : Office ε ρ :=
  ⟨meanwhile office.outside, books, office.records⟩

/-- The office after the clerk has been at work. -/
def kept (meanwhile : ε → ε) (office : Office ε ρ) (desk : Books × ρ) : Office ε ρ :=
  ⟨meanwhile office.outside, desk.1, desk.2⟩

end Office

/-- The ledger of an office: the block store of its books, and the log and the counters that the
clerk keeps. -/
def Clerk.ledger {fault : Nat → Access → Option String} (clerk : Clerk fault ρ)
    (meanwhile : ε → ε) : Ledger (Office ε ρ) :=
  { Ledger.ofBooks.within Office.books (Office.stored meanwhile) with
    logAddition := fun block =>
      Ledger.onPart Office.desk (Office.kept meanwhile) (clerk.logAddition block)
    logRemoval := fun id => Ledger.onPart Office.desk (Office.kept meanwhile) (clerk.logRemoval id)
    count := fun name delta =>
      Ledger.onPart Office.desk (Office.kept meanwhile) (clerk.count name delta) }

/-! ## Some clerks -/

variable {fault : Nat → Access → Option String}

/-- The clerk that keeps the log and the counters of the books.  It shares the session of the
block store, for which accesses must not fail by their numbers. -/
def Clerk.ofBooks (fault : Nat → Access → Option String)
    (steady : ∀ number other request, ¬request.OfCounter →
      fault number request = fault other request) : Clerk fault Unit where
  logAddition block := Ledger.onPart Prod.fst (fun _ books => (books, ()))
    (Ledger.ofBooks.logAddition block)
  logRemoval id := Ledger.onPart Prod.fst (fun _ books => (books, ()))
    (Ledger.ofBooks.logRemoval id)
  count name delta := Ledger.onPart Prod.fst (fun _ books => (books, ()))
    (Ledger.ofBooks.count name delta)
  aside_logAddition block desk same := by
    subst same
    exact ⟨rfl, .refl _⟩
  aside_logRemoval id desk same := by
    subst same
    exact ⟨rfl, .refl _⟩
  aside_count name delta desk same := by
    subst same
    obtain ⟨result, after, count, ran, entries⟩ :=
      Store.Counter.sameEntries_update name delta desk.1.session.accesses
    have counted : Store.Counter.update name delta desk.1.session = _ := ran
    dsimp only [Ledger.onPart, Ledger.ofBooks, Books.storing]
    rw [counted]
    cases result <;>
      exact ⟨rfl, rfl, rfl, entries, fun number request other => steady _ _ request other⟩

/-- With this clerk, the ledger of an office is that of its books. -/
theorem Clerk.ledger_ofBooks (steady : ∀ number other request, ¬request.OfCounter →
      fault number request = fault other request) (meanwhile : ε → ε) :
    (Clerk.ofBooks fault steady).ledger meanwhile =
      Ledger.ofBooks.within Office.books (Office.stored meanwhile) :=
  rfl

/-- A clerk who appends to the event log except when it fails, and who reaches the counters
through a session of its own, in which accesses fail in any way. -/
def Clerk.apart (fault : Nat → Access → Option String) (logFails : Nat → Option SyncError)
    (counterFault : Nat → Access → Option String) : Clerk fault (Nat × Nat) where
  logAddition block := fun (books, logged, counted) =>
    match logFails logged with
    | some error => (.error error, books, logged + 1, counted)
    | none =>
        let (result, books) := Ledger.ofBooks.logAddition block books
        (result, books, logged + 1, counted)
  logRemoval id := fun (books, logged, counted) =>
    match logFails logged with
    | some error => (.error error, books, logged + 1, counted)
    | none =>
        let (result, books) := Ledger.ofBooks.logRemoval id books
        (result, books, logged + 1, counted)
  count name delta := fun (books, logged, counted) =>
    match Counter.update name delta ⟨books.session.database, counted, counterFault⟩ with
    | .ok value session =>
        (.ok value, { books with
          session := { books.session with database := session.database } },
          logged, session.accesses)
    | .error error session =>
        (.error error, { books with
          session := { books.session with database := session.database } },
          logged, session.accesses)
  aside_logAddition block desk same := by
    subst same
    dsimp only
    split <;> exact ⟨rfl, .refl _⟩
  aside_logRemoval id desk same := by
    subst same
    dsimp only
    split <;> exact ⟨rfl, .refl _⟩
  aside_count name delta desk same := by
    subst same
    obtain ⟨result, after, count, ran, entries⟩ :=
      Store.Counter.sameEntries_update name delta desk.2.2
    dsimp only
    rw [ran]
    cases result <;> exact ⟨rfl, rfl, rfl, entries, fun number request other => rfl⟩

/-! ## Offices with different clerks -/

variable {first second : Nat → Access → Option String} {left : Office ε ρ} {right : Office ε τ}

/-- Offices that only their clerks tell apart. -/
structure Office.Alike (first second : Nat → Access → Option String) (left : Office ε ρ)
    (right : Office ε τ) : Prop where
  outside : left.outside = right.outside
  store : left.books.store = right.books.store
  session : Twins first second left.books.session right.books.session

/-- Offices whose workers are modest, and that only their clerks tell apart. -/
structure Office.Paired (first second : Nat → Access → Option String) (left : Office ε ρ)
    (right : Office ε τ) : Prop extends Office.Alike first second left right where
  modest : left.books.store.Modest

/-- Requests and waits go alike. -/
theorem Surroundings.pairs_office (around : Surroundings ε) :
    (around.office : Surroundings (Office ε ρ)).Pairs (around.office : Surroundings (Office ε τ))
      (Office.Paired first second) where
  cancelled paired := congrArg around.cancelled paired.outside
  status {left right} paired := by
    have same : around.status left.outside = around.status right.outside :=
      congrArg around.status paired.outside
    exact ⟨congrArg Prod.fst same, ⟨congrArg Prod.snd same, paired.store, paired.session⟩,
      paired.modest⟩
  block {left right} index ahead paired := by
    have same : around.block index ahead left.outside = around.block index ahead right.outside :=
      congrArg (around.block index ahead) paired.outside
    exact ⟨congrArg Prod.fst same, ⟨congrArg Prod.snd same, paired.store, paired.session⟩,
      paired.modest⟩
  rest span paired :=
    ⟨⟨congrArg (around.rest span) paired.outside, paired.store, paired.session⟩, paired.modest⟩

namespace Office.Paired

/-- A computation on the database goes alike. -/
theorem storing (paired : left.Paired first second right) (meanwhile : ε → ε)
    (act : BlockStore → Storing α) (blind : Blind first second (act left.books.store)) :
    Sync.Paired (Office.Paired first second)
      (Ledger.onPart Office.books (Office.stored meanwhile) (Books.storing act) left)
      (Ledger.onPart Office.books (Office.stored meanwhile) (Books.storing act) right) := by
  obtain ⟨result, leftAfter, rightAfter, ranLeft, ranRight, twins⟩ :=
    blind left.books.session right.books.session paired.session
  rw [paired.store] at ranRight
  unfold Ledger.onPart Books.storing Office.stored
  dsimp only
  rw [ranLeft, ranRight]
  cases result with
  | ok value => exact ⟨rfl, ⟨congrArg meanwhile paired.outside, paired.store, twins⟩, paired.modest⟩
  | error error =>
      exact ⟨rfl, ⟨congrArg meanwhile paired.outside, paired.store, twins⟩, paired.modest⟩

/-- What clerks do to the books goes unnoticed. -/
theorem aside (paired : left.Paired first second right) (meanwhile : ε → ε)
    {leftDesk : Books × ρ} {rightDesk : Books × τ}
    (leftAside : left.books.Aside first leftDesk.1)
    (rightAside : right.books.Aside second rightDesk.1) :
    (left.kept meanwhile leftDesk).Paired first second (right.kept meanwhile rightDesk) where
  outside := congrArg meanwhile paired.outside
  store := leftAside.store.symm.trans (paired.store.trans rightAside.store)
  session := leftAside.session.symm.trans (paired.session.trans rightAside.session)
  modest := leftAside.store ▸ paired.modest

end Office.Paired

/-- Once the workers are set, only their clerks tell offices apart. -/
theorem Office.Alike.prepared (alike : left.Alike first second right) (clerk : Clerk first ρ)
    (other : Clerk second τ) {workers : List Worker} (modest : ∀ worker ∈ workers, worker.Modest)
    (meanwhile : ε → ε) :
    Office.Paired first second ((clerk.ledger meanwhile).prepare workers left)
      ((other.ledger meanwhile).prepare workers right) where
  outside := congrArg meanwhile alike.outside
  store := congrArg (fun store : BlockStore => { store with workers }) alike.store
  session := alike.session
  modest := modest

/-- The ledgers of two clerks cannot be told apart. -/
theorem Clerk.pairs_ledger (clerk : Clerk first ρ) (other : Clerk second τ) (meanwhile : ε → ε) :
    (clerk.ledger meanwhile).Pairs (other.ledger meanwhile) (Office.Paired first second) where
  setStart start paired :=
    paired.storing meanwhile (fun store => store.setStart start)
      (BlockStore.blind_setStart paired.modest start)
  head paired := paired.storing meanwhile (fun _ => BlockStore.head) BlockStore.blind_head
  recent {left _} paired :=
    paired.storing meanwhile (fun store => store.recent)
      (BlockStore.blind_recent left.books.store)
  add block paired :=
    paired.storing meanwhile (fun store => store.add block) (BlockStore.blind_add _ block)
  remove id paired :=
    paired.storing meanwhile (fun store => store.remove id) (BlockStore.blind_remove _ id)
  logAddition {left right} block paired :=
    paired.aside meanwhile (clerk.aside_logAddition block left.desk paired.session.faultLeft)
      (other.aside_logAddition block right.desk paired.session.faultRight)
  logRemoval {left right} id paired :=
    paired.aside meanwhile (clerk.aside_logRemoval id left.desk paired.session.faultLeft)
      (other.aside_logRemoval id right.desk paired.session.faultRight)
  count {left right} name delta paired :=
    paired.aside meanwhile (clerk.aside_count name delta left.desk paired.session.faultLeft)
      (other.aside_count name delta right.desk paired.session.faultRight)

/-! ## Runs -/

/-- A run does not depend on its clerk.  Two runs from the same block store, over the same network,
send the same requests in the same order, those whose answers are dropped included, and leave the
same world outside; they make the same calls, of which the same are carried out; they end in the
same way and leave the same entries apart from counters. -/
theorem sync_ignores_clerk (network : Network ε) (meanwhile : ε → ε)
    (clerk : Clerk first ρ) (other : Clerk second τ) {follower : Follower}
    (modest : ∀ worker ∈ follower.workers, worker.Modest) (start final : Int64) (fuel : Nat)
    {left : Office (Flight ε) ρ} {right : Office (Flight ε) τ}
    (alike : left.Alike first second right) :
    let around : Surroundings (Office (Flight ε) ρ) := network.surroundings.office
    let aroundOther : Surroundings (Office (Flight ε) τ) := network.surroundings.office
    let leftLedger := clerk.ledger (Flight.after meanwhile)
    let rightLedger := other.ledger (Flight.after meanwhile)
    let leftRun := follower.sync around leftLedger start final fuel left
    let rightRun := follower.sync aroundOther rightLedger start final fuel right
    leftRun.2.outside.queries = rightRun.2.outside.queries ∧
    leftRun.2.outside.outside = rightRun.2.outside.outside ∧
    follower.calls around leftLedger start final fuel left =
      follower.calls aroundOther rightLedger start final fuel right ∧
    follower.decisions around leftLedger start final fuel left =
      follower.decisions aroundOther rightLedger start final fuel right ∧
    leftRun.1 = rightRun.1 ∧
    ∀ key, (∀ name, key ≠ (Key.counter name).bytes) →
      leftRun.2.books.session.database.get? key = rightRun.2.books.session.database.get? key := by
  intro around aroundOther leftLedger rightLedger leftRun rightRun
  by_cases valid : start < -1
  · have refusedLeft : follower.prepare leftLedger start left =
        (.error (.config ("invalid start index " ++ toString start)), left) := if_pos valid
    have refusedRight : follower.prepare rightLedger start right =
        (.error (.config ("invalid start index " ++ toString start)), right) := if_pos valid
    simp only [leftRun, rightRun, Follower.sync, Follower.calls, Follower.decisions,
      Follower.trail, refusedLeft, refusedRight, alike.outside, true_and]
    exact alike.session.entries
  · have pairs : around.Pairs aroundOther (Office.Paired first second) :=
      network.surroundings.pairs_office
    have ledgers := clerk.pairs_ledger other (Flight.after meanwhile)
    have prepared := alike.prepared clerk other modest (Flight.after meanwhile)
    obtain ⟨result, after⟩ := ledgers.sync pairs valid prepared final fuel
    refine ⟨congrArg Flight.queries after.outside, congrArg Flight.outside after.outside, ?_, ?_,
      result, after.session.entries⟩
    · rw [Follower.calls_eq_trail, Follower.calls_eq_trail]
      exact ledgers.trail pairs valid prepared
        (fun machines => congrArg Option.toList (machines.call? pairs)) final fuel
    · exact ledgers.trail pairs valid prepared
        (fun machines => congrArg Option.toList (machines.granted? pairs ledgers.handler)) final
        fuel

/-- A node with the chain that omits index 1 and, at its tip, index 3, to which there is time to
send one more request before an answer is taken up. -/
def forkNode : Network Unit where
  cancelled _ := false
  status _ := (some (.ok ⟨⟨3, "d"⟩, 0, Store.firstBlock.id, none, []⟩), ())
  send _ _ := ()
  lead _ := 1
  receive index _ := (some (.ok (forkChain index)), ())
  rest _ _ := ()

/-- A follower that may have two requests in flight. -/
def eagerFollower : Follower := ⟨[Worker.transactionIndex], 2⟩

theorem modest_eagerFollower : ∀ worker ∈ eagerFollower.workers, worker.Modest :=
  modest_indexingFollower

/-- The office of the clerk of the books, who has a stale block in them. -/
def staleOffice : Office (Flight Unit) Unit :=
  ⟨⟨(), [], 0⟩, Scene.booksOf staleShelf, ()⟩

/-- The same office but for a counter that cannot be read. -/
def spoiltOffice : Office (Flight Unit) (Nat × Nat) :=
  ⟨⟨(), [], 0⟩, Scene.booksOf ⟨staleShelf.store, .reliable <| staleShelf.session.database.insert
    (Key.counter Store.Counter.blocks).bytes [0x61]⟩, (0, 0)⟩

/-- The clerk of books in which no access fails. -/
def bookkeeper : Clerk (fun _ _ => none) Unit :=
  .ofBooks _ fun _ _ _ _ => rfl

/-- A clerk whose log is full and for whom every other access fails. -/
def troubledClerk : Clerk (fun _ _ => none) (Nat × Nat) :=
  .apart _ (fun _ => some (.storage (.database "full"))) fun number _ =>
    if number % 2 = 0 then none else some "busy"

theorem alike_spoiltOffice :
    staleOffice.Alike (fun _ _ => none) (fun _ _ => none) spoiltOffice where
  outside := rfl
  store := rfl
  session := by
    refine ⟨rfl, rfl, ?_, fun _ _ _ => rfl⟩
    exact Store.sameEntries_insert_counter _ _ _

/-- For a clerk in trouble, too, the stale block is taken back, with the request ahead of it
dropped, and the other one added. -/
theorem sync_ignores_troubledClerk :
    let run := eagerFollower.sync forkNode.surroundings.office
      (troubledClerk.ledger (Flight.after id)) (-1) 3 7 spoiltOffice
    run.2.outside.queries = [.status, .block 2, .block 3, .status, .block 1, .block 2, .block 3,
        .status] ∧
      run.1 = some (.ok ()) ∧
      run.2.books.session.database.get? Key.head.bytes = some (Json.encode forkBlock.id) := by
  have asked : (eagerFollower.sync forkNode.surroundings.office
      (bookkeeper.ledger (Flight.after id)) (-1) 3 7 staleOffice).2.outside.queries =
        [.status, .block 2, .block 3, .status, .block 1, .block 2, .block 3, .status] := by
    decide +kernel
  have ended : (eagerFollower.sync forkNode.surroundings.office
      (bookkeeper.ledger (Flight.after id)) (-1) 3 7 staleOffice).1 = some (.ok ()) := by
    decide +kernel
  have newest : (eagerFollower.sync forkNode.surroundings.office
      (bookkeeper.ledger (Flight.after id)) (-1) 3 7
      staleOffice).2.books.session.database.get? Key.head.bytes =
        some (Json.encode forkBlock.id) := by decide +kernel
  obtain ⟨queries, -, -, -, result, entries⟩ := sync_ignores_clerk forkNode id bookkeeper
    troubledClerk modest_eagerFollower (-1) 3 7 alike_spoiltOffice
  exact ⟨queries.symm.trans asked, result.symm.trans ended,
    (entries _ Key.ofChain_head.ne_counter).symm.trans newest⟩

end ChainFollower.Sync
