import ChainFollower.Proofs.Remote.Delays
import ChainFollower.Remote.Fetcher

/-!
# How often a request is sent

A request is sent again as long as a retry may get over the reply and retries are left.  What comes
of it is what the first reply says that no retry gets over; if there is none among as many replies
as there may be attempts, the attempts are counted and the last failure is quoted.
-/

namespace ChainFollower.Remote

variable {α : Type}

/-! ## One reply -/

/-- Whether a failure is what one reply of the node amounts to. -/
def FailsOnce : FetchError → Prop
  | .status _ _ | .invalidResponse _ => True
  | .request _ | .retriesExhausted _ _ => False

namespace Reply

/-- The error that the node reports in a body, if its text is one. -/
def reported? (body : Body) : Option NodeError :=
  Json.decode? (Bytes.ofString body.text)

/-- Whether a retry may get over a reply. -/
def Retriable : Reply → Prop
  | .failed _ => True
  | .received status body =>
      isServerError status = true ∨
        (isSuccess status = false ∧ ∃ error ∈ reported? body, error.retriable = true) ∨
        (status = tooManyRequests ∧ reported? body = none)

/-- What a reply says on its own, be it retried or not. -/
def answer (decode : Bytes → Option α) : Reply → Except FetchError α
  | .failed reason => .error (.request reason)
  | .received status body =>
      if isSuccess status then
        match body.bytes.bind decode with
        | some value => .ok value
        | none => .error (.invalidResponse body.flaw)
      else
        .error (.status status
          (match reported? body with
          | some error => error.message ++ " (code " ++ toString error.code ++ ")"
          | none => body.text))

variable {decode : Bytes → Option α} {reply : Reply}

/-- What the outcome of a reply says about it. -/
inductive Judged (decode : Bytes → Option α) (reply : Reply) : Outcome α → Prop
  | done (value : α) (final : ¬reply.Retriable) (gives : reply.answer decode = .ok value) :
      Judged decode reply (.done value)
  | retriable (error : FetchError) (again : reply.Retriable)
      (gives : reply.answer decode = .error error) : Judged decode reply (.retriable error)
  | fatal (error : FetchError) (final : ¬reply.Retriable)
      (gives : reply.answer decode = .error error) (own : FailsOnce error) :
      Judged decode reply (.fatal error)

/-- No status is both. -/
theorem isServerError_of_isSuccess {status : Nat} (success : isSuccess status = true) :
    isServerError status = false := by
  simp only [isServerError, isSuccess, Bool.and_eq_true, decide_eq_true_eq,
    Bool.and_eq_false_iff, decide_eq_false_iff_not] at success ⊢
  omega

/-- A success is final, whether it is understood or not. -/
theorem final_of_isSuccess {status : Nat} (body : Body) (success : isSuccess status = true) :
    ¬(Reply.received status body).Retriable := by
  rintro (fault | ⟨fails, -⟩ | ⟨rfl, -⟩)
  · exact Bool.false_ne_true ((isServerError_of_isSuccess success).symm.trans fault)
  · exact Bool.false_ne_true (fails.symm.trans success)
  · exact absurd success (by decide)

theorem judged_failing {status : Nat} {body : Body} {text : String} {mayRetry : Bool}
    (gives : (Reply.received status body).answer decode = .error (.status status text))
    (helps : mayRetry = true ↔ (Reply.received status body).Retriable) :
    Judged decode (.received status body) (failing mayRetry (.status status text)) := by
  unfold failing
  split
  next again => exact .retriable _ (helps.1 again) gives
  next final => exact .fatal _ (fun again => final (helps.2 again)) gives trivial

theorem judged_outcome (decode : Bytes → Option α) (reply : Reply) :
    Judged decode reply (reply.outcome decode) := by
  cases reply with
  | failed reason => exact .retriable _ trivial rfl
  | received status body =>
      rw [outcome]
      split
      next success =>
        have final := final_of_isSuccess body success
        split
        next value decoded =>
          refine .done value final ?_
          simp only [answer, success, decoded, if_true]
        next undecoded =>
          refine .fatal _ final ?_ trivial
          simp only [answer, success, undecoded, if_true]
      next fails =>
        have noSuccess : isSuccess status = false := Bool.eq_false_iff.2 fails
        unfold failure
        split
        next error reported =>
          have reports : reported? body = some error := reported
          apply judged_failing
          · simp only [answer, noSuccess, reports, Bool.false_eq_true, if_false]
          · simp [Retriable, noSuccess, reports, or_comm]
        next silent =>
          have reports : reported? body = none := silent
          apply judged_failing
          · simp only [answer, noSuccess, reports, Bool.false_eq_true, if_false]
          · simp [Retriable, reports]

/-- A reply that a retry may get over is a failure. -/
theorem outcome_of_retriable (decode : Bytes → Option α) (again : reply.Retriable) :
    ∃ error, reply.answer decode = .error error ∧ reply.outcome decode = .retriable error := by
  have judged := judged_outcome decode reply
  generalize reply.outcome decode = outcome at judged ⊢
  cases judged with
  | done _ final | fatal _ final => exact absurd again final
  | retriable error _ gives => exact ⟨error, gives, rfl⟩

/-- Any other reply settles the request by what it says. -/
theorem verdict_of_final (decode : Bytes → Option α) (backoff : Backoff) (attempt : UInt32)
    (final : ¬reply.Retriable) :
    backoff.verdict attempt (reply.outcome decode) = .settled (reply.answer decode) := by
  have judged := judged_outcome decode reply
  generalize reply.outcome decode = outcome at judged ⊢
  cases judged with
  | done _ _ gives | fatal _ _ gives => rw [gives, Backoff.verdict]
  | retriable _ again => exact absurd again final

/-- If it is a failure, then one of this reply. -/
theorem failsOnce_of_final {error : FetchError} (final : ¬reply.Retriable)
    (gives : reply.answer decode = .error error) : FailsOnce error := by
  have judged := judged_outcome decode reply
  generalize reply.outcome decode = outcome at judged
  cases judged with
  | done _ _ givesOther => nomatch gives.symm.trans givesOther
  | retriable _ again => exact absurd again final
  | fatal _ _ givesOther own =>
      cases gives.symm.trans givesOther
      exact own

end Reply

/-! ## A sequence of replies -/

/-- What a fetcher does over a transport. -/
inductive Exchange where
  | asked (request : Request)
  | waited (span : Duration)

/-- How many requests were sent. -/
def asked (exchanges : List Exchange) : Nat :=
  exchanges.countP (· matches .asked _)

/-- The transport on which the replies come one after another and every request is wanted.  It keeps
what is done over it, in order. -/
def Transport.replying (replies : Nat → Reply) : Transport (List Exchange) where
  send request exchanges := (replies (asked exchanges), exchanges ++ [.asked request])
  rest span exchanges := exchanges ++ [.waited span]
  abandoned _ := false

/-- A request sent once before each of some waits. -/
def attempts (request : Request) (waits : List Duration) : List Exchange :=
  waits.flatMap fun wait => [.asked request, .waited wait]

@[simp] theorem asked_attempts (request : Request) (waits : List Duration) :
    asked (attempts request waits) = waits.length := by
  induction waits with
  | nil => rfl
  | cons wait waits ih =>
      change asked (.asked request :: .waited wait :: attempts request waits) = _
      simp only [asked, List.countP_cons] at ih ⊢
      simp [ih]

theorem attempts_concat (request : Request) (waits : List Duration) (wait : Duration) :
    attempts request (waits ++ [wait]) =
      attempts request waits ++ [.asked request, .waited wait] := by
  simp [attempts]

/-- The waits before the first retries, as far as there are any. -/
def Backoff.schedule (backoff : Backoff) (count : Nat) : List (Option Duration) :=
  (List.range count).map fun earlier => backoff.delay? (UInt32.ofNat (earlier + 1))

theorem Backoff.schedule_succ (backoff : Backoff) (count : Nat) :
    backoff.schedule (count + 1) =
      backoff.schedule count ++ [backoff.delay? (UInt32.ofNat (count + 1))] := by
  simp [schedule, List.range_succ]

/-- There is a wait as long as retries are left. -/
theorem Backoff.exists_delay {backoff : Backoff} {retry : Nat} (counted : retry ≠ 0)
    (left : retry ≤ backoff.retries.toNat) :
    ∃ delay, backoff.delay? (UInt32.ofNat retry) = some delay := by
  have bound := backoff.retries.toNat_lt
  have number : (UInt32.ofNat retry).toNat = retry :=
    UInt32.toNat_ofNat_of_lt' (Nat.lt_of_le_of_lt left bound)
  refine Option.ne_none_iff_exists'.1 fun none => ?_
  rcases delay?_eq_none_iff.1 none with zero | spent
  · rw [zero] at number
    exact counted number.symm
  · have less := UInt32.lt_iff_toNat_lt.1 spent
    omega

namespace Fetcher

variable {fetcher : Fetcher} {replies : Nat → Reply} {decode : Bytes → Option α} {request : Request}
  {left : Nat} {number : UInt32} {exchanges : List Exchange}

theorem attempt_settled {result : Except FetchError α}
    (settled : fetcher.backoff.verdict number ((replies (asked exchanges)).outcome decode) =
      .settled result) :
    fetcher.attempt (.replying replies) decode request left number exchanges =
      (some (result.mapError .fetch), exchanges ++ [.asked request]) := by
  unfold attempt
  simp only [Transport.replying, settled]

theorem attempt_again {error : FetchError} {delay : Duration}
    (retriable : (replies (asked exchanges)).outcome decode = .retriable error)
    (waits : fetcher.backoff.delay? number = some delay) :
    fetcher.attempt (.replying replies) decode request (left + 1) number exchanges =
      fetcher.attempt (.replying replies) decode request left (number + 1)
        (exchanges ++ [.asked request, .waited delay]) := by
  have again : fetcher.backoff.verdict number ((replies (asked exchanges)).outcome decode) =
      .again delay := by
    rw [retriable, Backoff.verdict, waits]
  rw [attempt]
  simp only [Transport.replying, again, Bool.false_eq_true, if_false, List.append_assoc,
    List.cons_append, List.nil_append]

/-- As long as a retry may get over the replies and retries are left, the request is sent again
after the wait of the schedule. -/
theorem post_eq_attempt (decode : Bytes → Option α) (request : Request) {count : Nat}
    (within : count ≤ fetcher.backoff.retries.toNat)
    (again : ∀ earlier < count, (replies earlier).Retriable) :
    ∃ waits : List Duration, waits.map some = fetcher.backoff.schedule count ∧
      waits.length = count ∧
      fetcher.post (.replying replies) decode request [] =
        fetcher.attempt (.replying replies) decode request (fetcher.backoff.retries.toNat - count)
          (UInt32.ofNat (count + 1)) (attempts request waits) := by
  induction count with
  | zero => exact ⟨[], rfl, rfl, rfl⟩
  | succ count ih =>
      obtain ⟨waits, scheduled, length, goesOn⟩ :=
        ih (by omega) fun earlier less => again earlier (by omega)
      obtain ⟨delay, isDelay⟩ := Backoff.exists_delay (Nat.succ_ne_zero count) within
      obtain ⟨error, -, retriable⟩ :=
        Reply.outcome_of_retriable decode (again count (Nat.lt_succ_self count))
      have place : asked (attempts request waits) = count := by rw [asked_attempts, length]
      rw [← place] at retriable
      have left : fetcher.backoff.retries.toNat - count =
          fetcher.backoff.retries.toNat - (count + 1) + 1 := by omega
      refine ⟨waits ++ [delay], ?_, ?_, ?_⟩
      · rw [List.map_append, scheduled, Backoff.schedule_succ, isDelay]
        rfl
      · rw [List.length_append, length]
        rfl
      · rw [goesOn, left, attempt_again retriable isDelay, attempts_concat]
        congr 1
        exact (UInt32.ofNat_add (count + 1) 1).symm

/-- A request is sent until a reply comes that no retry gets over, and comes to what that reply
says; if every one of the replies that there is an attempt for may be got over, the failure counts
the attempts and quotes the last of them.  Between two attempts is the wait of the schedule. -/
theorem post_retries (fetcher : Fetcher) (replies : Nat → Reply) (decode : Bytes → Option α)
    (request : Request) (few : fetcher.backoff.retries.toNat < 4294967295) :
    (∀ count ≤ fetcher.backoff.retries.toNat,
      (∀ earlier < count, (replies earlier).Retriable) → ¬(replies count).Retriable →
      ∃ waits : List Duration, waits.map some = fetcher.backoff.schedule count ∧
        fetcher.post (.replying replies) decode request [] =
          (some (((replies count).answer decode).mapError .fetch),
            attempts request waits ++ [.asked request]) ∧
        ∀ error, (replies count).answer decode = .error error → FailsOnce error) ∧
    ((∀ place ≤ fetcher.backoff.retries.toNat, (replies place).Retriable) →
      ∃ (waits : List Duration) (last : FetchError),
        waits.map some = fetcher.backoff.schedule fetcher.backoff.retries.toNat ∧
        (replies fetcher.backoff.retries.toNat).answer decode = .error last ∧
        fetcher.post (.replying replies) decode request [] =
          (some (.error (.fetch (.retriesExhausted (fetcher.backoff.retries.toNat + 1)
            last.message))), attempts request waits ++ [.asked request])) := by
  constructor
  · intro count within again final
    obtain ⟨waits, scheduled, length, goesOn⟩ := post_eq_attempt decode request within again
    refine ⟨waits, scheduled, ?_, fun error => Reply.failsOnce_of_final final⟩
    rw [goesOn]
    apply attempt_settled
    rw [asked_attempts, length]
    exact Reply.verdict_of_final decode _ _ final
  · intro again
    obtain ⟨waits, scheduled, length, goesOn⟩ :=
      post_eq_attempt decode request (Nat.le_refl fetcher.backoff.retries.toNat)
        fun earlier less => again earlier (Nat.le_of_lt less)
    obtain ⟨last, gives, retriable⟩ :=
      Reply.outcome_of_retriable decode (again _ (Nat.le_refl fetcher.backoff.retries.toNat))
    have number : (UInt32.ofNat (fetcher.backoff.retries.toNat + 1)).toNat =
        fetcher.backoff.retries.toNat + 1 := by
      apply UInt32.toNat_ofNat_of_lt'
      change _ < 4294967296
      omega
    have spent : fetcher.backoff.delay? (UInt32.ofNat (fetcher.backoff.retries.toNat + 1)) = none :=
      Backoff.delay?_eq_none_iff.2 (Or.inr (UInt32.lt_iff_toNat_lt.2 (by omega)))
    have settled : fetcher.backoff.verdict (UInt32.ofNat (fetcher.backoff.retries.toNat + 1))
        ((replies (asked (attempts request waits))).outcome decode) = .settled (.error
          (.retriesExhausted (fetcher.backoff.retries.toNat + 1) last.message)) := by
      rw [asked_attempts, length, retriable, Backoff.verdict, spent, number]
    exact ⟨waits, last, scheduled, gives, goesOn.trans (attempt_settled settled)⟩

/-- The offer to try again later, two bytes a character after a byte order mark. -/
def wideOffer : Body where
  bytes := some (0xFF :: 0xFE :: (Bytes.ofString "[3,\"not yet\",true]").flatMap ([·, 0]))
  text := "[3,\"not yet\",true]"
  flaw := "error decoding response body: expected value at line 1 column 1"

/-- A node that does not answer at first, then is busy, and then refuses, with and without an offer
to try again. -/
def moodyNode : Nat → Reply
  | 0 => .failed "connection reset"
  | 1 => .answered 429 (Bytes.ofString "slow down")
  | 2 => .received 400 wideOffer
  | _ => .answered 429 (Bytes.ofString "[4,\"never\"]")

theorem retriable_moodyNode : ∀ place < 3, (moodyNode place).Retriable
  | 0, _ => trivial
  | 1, _ => Or.inr (Or.inr ⟨rfl, by decide⟩)
  | 2, _ => Or.inr (Or.inl ⟨rfl, ⟨3, "not yet", true⟩, by decide, rfl⟩)

/-- With three retries the last refusal is what comes of a request to this node; with two, it is
that they are exhausted. -/
theorem post_retries_moodyNode :
    let patient : Fetcher := ⟨"http://n", .ofMillis 1, .ofMillis 2, 3⟩
    let hasty : Fetcher := ⟨"http://n", .ofMillis 1, .ofMillis 2, 2⟩
    let request : Request := ⟨"http://n/block", []⟩
    (∃ waits : List Duration, waits.map some = patient.backoff.schedule 3 ∧
      patient.post (.replying moodyNode) List.head? request [] =
        (some (.error (.fetch (.status 429 "never (code 4)"))),
          attempts request waits ++ [.asked request])) ∧
      ∃ waits : List Duration, waits.map some = hasty.backoff.schedule 2 ∧
        hasty.post (.replying moodyNode) List.head? request [] =
          (some (.error (.fetch (.retriesExhausted 3 "server returned 400: not yet (code 3)"))),
            attempts request waits ++ [.asked request]) := by
  intro patient hasty request
  have final : ¬(moodyNode 3).Retriable := by
    rintro (fault | ⟨-, error, reported, helps⟩ | ⟨-, silent⟩)
    · exact absurd fault (by decide)
    · have same : error = ⟨4, "never", false⟩ := Option.some.inj (reported.symm.trans (by decide))
      rw [same] at helps
      exact Bool.false_ne_true helps
    · exact absurd silent (by decide)
  constructor
  · obtain ⟨waits, scheduled, comes, -⟩ :=
      (post_retries patient moodyNode List.head? request (by decide)).1 3 (by decide)
        retriable_moodyNode final
    have gives : (moodyNode 3).answer (List.head? (α := UInt8)) =
        .error (.status 429 "never (code 4)") := rfl
    rw [gives] at comes
    exact ⟨waits, scheduled, comes⟩
  · obtain ⟨waits, last, scheduled, gives, comes⟩ :=
      (post_retries hasty moodyNode List.head? request (by decide)).2
        fun place within => retriable_moodyNode place (Nat.lt_succ_of_le within)
    have quoted : (moodyNode 2).answer (List.head? (α := UInt8)) =
        .error (.status 400 "not yet (code 3)") := rfl
    have same : last = .status 400 "not yet (code 3)" :=
      Except.error.inj (gives.symm.trans quoted)
    rw [same] at comes
    exact ⟨waits, scheduled, comes⟩

end Fetcher

end ChainFollower.Remote
