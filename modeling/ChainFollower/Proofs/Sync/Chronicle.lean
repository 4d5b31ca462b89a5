import ChainFollower.Proofs.Sync.Trails

/-!
# The event log of a run

Each decision that is carried out appends its lines to the streams of the event log, in order.
Nothing else appends to them, neither decisions that fail nor what is done to prepare a run.
-/

namespace ChainFollower

namespace EventLog

/-! ## Files -/

/-- The text of a stream, if it was ever written. -/
def Files.text (files : Files) : Stream → Option String
  | .blocks => files.blocks
  | .transactions => files.transactions

/-- A file after lines are appended; the first of them makes it. -/
def appended (file : Option String) : List String → Option String
  | [] => file
  | line :: lines => some (file.getD "" ++ String.join (line :: lines))

theorem appended_append (file : Option String) (first second : List String) :
    appended (appended file first) second = appended file (first ++ second) := by
  cases first with
  | nil => rfl
  | cons line first =>
      cases second with
      | nil => rw [List.append_nil, appended]
      | cons other second =>
          simp only [appended, List.cons_append, Option.getD_some, String.join_cons,
            String.join_append, String.append_assoc]

/-- Lines that are appended at once. -/
theorem appended_join (file : Option String) {lines : List String} (some : lines ≠ []) :
    appended file [String.join lines] = appended file lines := by
  cases lines with
  | nil => exact absurd rfl some
  | cons line lines => simp only [appended, String.join_cons, String.join_nil, String.append_empty]

/-- The texts for one stream among texts to be appended. -/
def texts (stream : Stream) (entries : List Append) : List String :=
  (entries.filter (·.stream = stream)).map (·.text)

variable {files : Files}

/-- Where the directory can be written, so is a text. -/
theorem Files.append_of_writable (writable : files.failure = none) (entry : Append) :
    ∃ after, files.append entry = .ok after ∧ after.failure = none ∧
      ∀ stream, after.text stream = appended (files.text stream) (texts stream [entry]) := by
  obtain ⟨written, text⟩ := entry
  cases written with
  | blocks =>
      refine ⟨{ files with blocks := some (files.blocks.getD "" ++ text) }, ?_, writable, ?_⟩
      · rw [append, writable]
      · rintro (_ | _) <;> simp [Files.text, texts, appended]
  | transactions =>
      refine ⟨{ files with transactions := some (files.transactions.getD "" ++ text) }, ?_,
        writable, ?_⟩
      · rw [append, writable]
      · rintro (_ | _) <;> simp [Files.text, texts, appended]

/-- And so are all. -/
theorem Files.appendAll_of_writable (writable : files.failure = none) (entries : List Append) :
    (files.appendAll entries).2.failure = none ∧ ∀ stream,
      (files.appendAll entries).2.text stream =
        appended (files.text stream) (texts stream entries) := by
  induction entries generalizing files with
  | nil => exact ⟨writable, fun _ => rfl⟩
  | cons entry rest ih =>
      obtain ⟨between, ran, stillWritable, written⟩ := append_of_writable writable entry
      obtain ⟨last, text⟩ := ih stillWritable
      rw [appendAll, ran]
      refine ⟨last, fun stream => ?_⟩
      rw [text, written, appended_append, texts, texts, texts, ← List.map_append,
        ← List.filter_append]
      rfl

/-! ## Streams -/

/-- Whether a log writes a stream at all. -/
def writes (log : EventLog) : Stream → Bool
  | .blocks => log.directory.isSome && log.logsBlocks
  | .transactions => log.directory.isSome && log.logsTransactions

end EventLog

namespace Sync

open EventLog (Append Files Stream appended texts)

/-- The lines of a stream about a call. -/
def Call.lines : Stream → Call → List String
  | .blocks, .added block => [EventLog.additionLine block]
  | .blocks, .removed id => [EventLog.removalLine id]
  | .transactions, .added block => block.transactions.map (EventLog.transactionLine block.id)
  | .transactions, .removed _ => []

/-- What a log says of calls in a stream. -/
def reported (log : EventLog) (stream : Stream) (calls : List Call) : List String :=
  if log.writes stream then calls.flatMap (Call.lines stream) else []

/-- What a log appends for a call. -/
def Call.entries (log : EventLog) : Call → List Append
  | .added block => log.addition block
  | .removed id => log.removal id

variable {σ : Type} {scene : Scene σ} {world : σ} {made : List Call} {call : Call}

theorem reported_append (log : EventLog) (stream : Stream) (calls more : List Call) :
    reported log stream (calls ++ more) = reported log stream calls ++ reported log stream more := by
  unfold reported
  split
  · exact List.flatMap_append
  · rfl

/-- What is appended to a stream for a call are its lines at once, if there are any. -/
theorem texts_entries (log : EventLog) (stream : Stream) (call : Call) :
    texts stream (call.entries log) =
      if log.writes stream ∧ call.lines stream ≠ [] then [String.join (call.lines stream)]
      else [] := by
  obtain ⟨directory, logsBlocks, logsTransactions⟩ := log
  cases call with
  | added block =>
      by_cases busy : block.transactions = [] <;> cases stream <;> cases directory <;>
        cases logsBlocks <;> cases logsTransactions <;>
        simp [texts, Call.entries, EventLog.addition, EventLog.writes, Call.lines, busy]
  | removed id =>
      cases stream <;> cases directory <;> cases logsBlocks <;>
        simp [texts, Call.entries, EventLog.removal, EventLog.writes, Call.lines]

/-- That is as good as one after another. -/
theorem appended_entries (log : EventLog) (stream : Stream) (call : Call) (file : Option String) :
    appended file (texts stream (call.entries log)) =
      appended file (reported log stream [call]) := by
  rw [texts_entries, reported, List.flatMap_singleton]
  by_cases writes : log.writes stream
  · by_cases empty : call.lines stream = []
    · rw [if_neg (fun some => some.2 empty), if_pos writes, empty]
    · rw [if_pos ⟨writes, empty⟩, if_pos writes, EventLog.appended_join file empty]
  · rw [if_neg (fun some => writes some.1), if_neg writes]

/-! ## Recording -/

@[simp] theorem Books.log_storing {α : Type} (act : Store.BlockStore → Store.Storing α)
    (books : Books) : (books.storing act).2.log = books.log := by
  unfold storing
  split <;> rfl

@[simp] theorem Books.files_storing {α : Type} (act : Store.BlockStore → Store.Storing α)
    (books : Books) : (books.storing act).2.files = books.files := by
  unfold storing
  split <;> rfl

/-- The event log of books of which calls were carried out. -/
structure Logged (opening : Books) (made : List Call) (books : Books) : Prop where
  log : books.log = opening.log
  writable : books.files.failure = none
  text : ∀ stream, books.files.text stream =
    appended (opening.files.text stream) (reported opening.log stream made)

namespace Logged

variable {opening books : Books}

/-- In the beginning nothing is said. -/
theorem opened (writable : opening.files.failure = none) : Logged opening [] opening := by
  refine ⟨rfl, writable, fun stream => ?_⟩
  unfold reported
  split <;> rfl

/-- What is done on the database says nothing. -/
theorem storing {α : Type} (logged : Logged opening made books)
    (act : Store.BlockStore → Store.Storing α) : Logged opening made (books.storing act).2 where
  log := (Books.log_storing act books).trans logged.log
  writable := (congrArg EventLog.Files.failure (Books.files_storing act books)).trans
    logged.writable
  text stream := (congrArg (·.text stream) (Books.files_storing act books)).trans
    (logged.text stream)

/-- What is appended for a call says its lines. -/
theorem logging (logged : Logged opening made books) (call : Call) :
    Logged opening (made ++ [call]) (books.logging fun log => call.entries log).2 := by
  obtain ⟨writable, text⟩ :=
    EventLog.Files.appendAll_of_writable logged.writable (call.entries books.log)
  refine ⟨logged.log, writable, fun stream => ?_⟩
  calc (books.logging fun log => call.entries log).2.files.text stream
      = appended (books.files.text stream) (texts stream (call.entries books.log)) := text stream
    _ = appended (appended (opening.files.text stream) (reported opening.log stream made))
          (reported opening.log stream [call]) := by
        rw [logged.text, appended_entries, logged.log]
    _ = appended (opening.files.text stream) (reported opening.log stream (made ++ [call])) := by
        rw [EventLog.appended_append, reported_append]

/-- A call that is carried out says its lines once. -/
theorem granted (logged : Logged opening made books)
    (granted : ((Follower.handler Ledger.ofBooks).carry call books).1 = .ok ()) :
    Logged opening (made ++ [call]) (books.record call) := by
  cases call with
  | added block =>
      change (Follower.added Ledger.ofBooks block books).1 = .ok () at granted
      change Logged opening _ (Follower.added Ledger.ofBooks block books).2
      rw [Follower.added_of_ok (Follower.add_of_added_ok granted)]
      have added := logged.storing fun store => store.add block
      exact (((added.logging (.added block)).storing _).storing _).storing _
  | removed id =>
      change (Follower.removed Ledger.ofBooks id books).1 = .ok () at granted
      change Logged opening _ (Follower.removed Ledger.ofBooks id books).2
      rw [Follower.removed_of_ok (Follower.remove_of_removed_ok granted)]
      have removed := logged.storing fun store => store.remove id
      exact (removed.logging (.removed id)).storing _

/-- A call that fails says nothing. -/
theorem refused (logged : Logged opening made books) {error : SyncError}
    (refused : ((Follower.handler Ledger.ofBooks).carry call books).1 = .error error) :
    Logged opening made (books.record call) := by
  cases call with
  | added block =>
      change (Follower.added Ledger.ofBooks block books).1 = .error error at refused
      change Logged opening made (Follower.added Ledger.ofBooks block books).2
      obtain ⟨cause, -, same⟩ := Follower.add_of_added_error refused
      rw [same]
      exact logged.storing fun store => store.add block
  | removed id =>
      change (Follower.removed Ledger.ofBooks id books).1 = .error error at refused
      change Logged opening made (Follower.removed Ledger.ofBooks id books).2
      obtain ⟨cause, -, same⟩ := Follower.remove_of_removed_error refused
      rw [same]
      exact logged.storing fun store => store.remove id

end Logged

/-! ## Runs -/

/-- Calls say their lines in the books of a scene if they are carried out. -/
theorem Scene.keeps_logged (scene : Scene σ) (opening : Books) :
    scene.handler.Keeps scene.around fun made world => Logged opening made (scene.books world) where
  silent made := scene.keeps_books (Logged opening made)
  granted made call world logged granted := by
    obtain ⟨result, recorded⟩ := scene.carry_eq call world
    rw [recorded]
    exact logged.granted (result.symm.trans granted)
  refused made call world error logged refused := by
    obtain ⟨result, recorded⟩ := scene.carry_eq call world
    rw [recorded]
    exact logged.refused (result.symm.trans refused)

/-- The books of a scene become what is made of them. -/
theorem Scene.books_onPart {α : Type} (scene : Scene σ) (act : Books → α × Books) (world : σ) :
    scene.books (Ledger.onPart scene.books scene.withBooks act world).2 =
      (act (scene.books world)).2 :=
  scene.books_withBooks world _

/-- To prepare a run says nothing, whatever it removes. -/
theorem Scene.logged_prepare (scene : Scene σ) {opening : Books} (follower : Follower)
    (start : Int64) {world : σ} (logged : Logged opening made (scene.books world)) :
    Logged opening made (scene.books (follower.prepare scene.ledger start world).2) := by
  have storing {α : Type} (act : Store.BlockStore → Store.Storing α) (world : σ)
      (logged : Logged opening made (scene.books world)) : Logged opening made
        (scene.books (Ledger.onPart scene.books scene.withBooks (Books.storing act) world).2) := by
    rw [scene.books_onPart]
    exact logged.storing act
  by_cases valid : start < -1
  · rw [Follower.prepare_of_invalid valid]
    exact logged
  · apply Follower.kept_prepare (fun after => Logged opening made (scene.books after)) valid
    · change Logged opening made (scene.books (scene.withBooks world _))
      rw [scene.books_withBooks]
      exact ⟨logged.log, logged.writable, logged.text⟩
    · exact storing fun store => store.setStart start
    · exact storing fun _ => Store.BlockStore.head
    · exact storing fun store => store.recent

/-- The event log after a run says exactly what was decided. -/
theorem Scene.logged_sync (scene : Scene σ) (follower : Follower) (start final : Int64)
    (fuel : Nat) {world : σ} (writable : (scene.books world).files.failure = none) :
    Logged (scene.books world)
      (follower.decisions scene.around scene.ledger start final fuel world)
      (scene.books (follower.sync scene.around scene.ledger start final fuel world).2) :=
  (scene.keeps_logged (scene.books world)).sync follower start final fuel world
    (scene.logged_prepare follower start (.opened writable))

end Sync

end ChainFollower
