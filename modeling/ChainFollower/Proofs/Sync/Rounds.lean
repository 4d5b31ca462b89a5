import ChainFollower.Proofs.Sync.Sights

/-!
# Room for progress

The last index of a round is computed in 64-bit words.  While sixteen times the concurrency and the
next index stay together below the largest word, the sum is the one of integers and the round has an
index to ask for; beyond that, the words wrap around, and most rounds are empty.
-/

namespace ChainFollower.Sync

variable {σ : Type}

namespace Engine

/-- How many blocks a round has at most, as a number. -/
def span (engine : Engine) : Nat := 16 * engine.concurrency.toNat

/-- Every word on the way to the end of a round is the number it stands for. -/
structure Exact (engine : Engine) : Prop where
  product : (engine.concurrency * 16).toNat = engine.span
  signed : (engine.concurrency * 16).toInt64.toInt = engine.span
  sum : (engine.next + (engine.concurrency * 16).toInt64).toInt = engine.next.toInt + engine.span
  difference : (engine.next + (engine.concurrency * 16).toInt64 - 1).toInt =
    engine.next.toInt + engine.span - 1

/-- A round makes room for progress: it ends between the next index and the last one, before as
many indices as it has blocks at most. -/
structure Advances (engine : Engine) (last : Int64) : Prop where
  next_le : engine.next ≤ engine.roundEnd last
  le_last : engine.roundEnd last ≤ last
  lt_span : (engine.roundEnd last).toInt - engine.next.toInt < engine.span

variable {engine : Engine} {last : Int64}

theorem span_withConcurrency (engine : Engine) (concurrency : UInt64) :
    (engine.withConcurrency concurrency).span = 16 * max concurrency.toNat 1 :=
  congrArg (16 * ·) (Words.toNat_max_one concurrency)

/-- The size of a round wraps around as a word without a sign. -/
theorem toNat_product (engine : Engine) :
    (engine.concurrency * 16).toNat = engine.span % 18446744073709551616 := by
  rw [UInt64.toNat_mul, span, Nat.mul_comm]
  rfl

/-- Read as a signed word, it wraps around to a negative one. -/
theorem toInt_product (engine : Engine) :
    (engine.concurrency * 16).toInt64.toInt = (engine.span : Int).bmod 18446744073709551616 := by
  rw [Words.toInt_toInt64_eq, toNat_product, Int.natCast_emod]
  exact Int.emod_bmod _ _

/-- The end of a round before it is compared with the last index. -/
theorem toInt_bound (engine : Engine) :
    (engine.next + (engine.concurrency * 16).toInt64 - 1).toInt =
      (engine.next.toInt + engine.span - 1).bmod 18446744073709551616 := by
  rw [Int64.toInt_sub, Int64.toInt_add, toInt_product, Int64.toInt_one]
  simp only [Int.add_bmod_bmod, Int.bmod_sub_bmod]

theorem toInt_roundEnd (engine : Engine) (last : Int64) :
    (engine.roundEnd last).toInt =
      min last.toInt ((engine.next.toInt + engine.span - 1).bmod 18446744073709551616) := by
  rw [roundEnd, Words.toInt_min, toInt_bound]

section

variable (natural : 0 ≤ engine.next)
include natural

/-- The words are exact as long as the next index and the size of a round are together below the
largest signed word. -/
theorem exact_iff : engine.Exact ↔ engine.next.toInt + engine.span < 9223372036854775808 := by
  have lower := Int64.le_iff_toInt_le.1 natural
  rw [Int64.toInt_zero] at lower
  constructor
  · intro exact
    rw [← exact.sum]
    exact Words.toInt_lt _
  · intro small
    have size : (engine.concurrency * 16).toInt64.toInt = engine.span := by
      rw [toInt_product]
      exact Int.bmod_eq_of_le (by omega) (by omega)
    have sum : (engine.next + (engine.concurrency * 16).toInt64).toInt =
        engine.next.toInt + engine.span := by
      rw [Words.toInt_add, size] <;> rw [size] <;> omega
    refine ⟨?_, size, sum, ?_⟩
    · rw [toNat_product]
      exact Nat.mod_eq_of_lt (by omega)
    · rw [Words.toInt_sub, sum, Int64.toInt_one] <;> rw [sum, Int64.toInt_one] <;> omega

/-- A round ends at the next index or later as long as what is left of its size after wrapping
around is not zero, and reaches from the next index to the largest signed word at most. -/
theorem le_roundEnd_iff (ahead : engine.next ≤ last) :
    engine.next ≤ engine.roundEnd last ↔ 0 < engine.span % 18446744073709551616 ∧
      engine.next.toInt + (engine.span % 18446744073709551616 : Nat) ≤ 9223372036854775808 := by
  have lower := Int64.le_iff_toInt_le.1 natural
  have order := Int64.le_iff_toInt_le.1 ahead
  have upper := Words.toInt_lt last
  have bound := toInt_roundEnd engine last
  rw [Int64.toInt_zero] at lower
  rw [Int.bmod_def] at bound
  rw [Int64.le_iff_toInt_le]
  omega

/-- A round that ends at the next index or later makes room for progress. -/
theorem advances_iff (ahead : engine.next ≤ last) :
    engine.Advances last ↔ engine.next ≤ engine.roundEnd last := by
  refine ⟨Advances.next_le, fun reaches => ⟨reaches, ?_, ?_⟩⟩
  · rw [Int64.le_iff_toInt_le, toInt_roundEnd]
    exact Int.min_le_left _ _
  · obtain ⟨more, fits⟩ := (le_roundEnd_iff natural ahead).1 reaches
    have lower := Int64.le_iff_toInt_le.1 natural
    have bound := toInt_roundEnd engine last
    rw [Int64.toInt_zero] at lower
    rw [Int.bmod_def] at bound
    omega

end

/-- A round has a block to ask for exactly if it ends at the next index or later. -/
theorem roundSize_ne_zero_iff : engine.roundSize last ≠ 0 ↔ engine.next ≤ engine.roundEnd last := by
  rw [roundSize, Int64.le_iff_toInt_le]
  omega

end Engine

namespace Machine

variable {around : Surroundings σ} {handler : Handler σ} {final : Int64} {status : NetworkStatus}
  {engine : Engine} {world : σ}

/-- A round begins when the status leaves something to ask for. -/
theorem beginRound_of_ahead (natural : 0 ≤ engine.next)
    (answer : (around.status world).1 = some (.ok status))
    (ahead : engine.next ≤ Engine.reachable status.current.index final) :
    (Machine.mk engine 0 world).beginRound around final =
      .running ⟨engine, engine.roundSize (Engine.reachable status.current.index final),
        (around.status world).2⟩ := by
  have notNegative : ¬engine.next < 0 := Int64.not_lt.2 natural
  have notBehind : ¬Engine.reachable status.current.index final < engine.next :=
    Int64.not_lt.2 ahead
  unfold beginRound
  rw [if_neg notNegative]
  dsimp only
  rw [answer]
  exact if_neg notBehind

/-- An engine whose round is empty looks at the status again and again, and never asks for a
block. -/
theorem run_of_empty {remote : Int64 → Except SyncError (Option Block)}
    (natural : 0 ≤ engine.next)
    (ahead : engine.next ≤ Engine.reachable status.current.index final)
    (empty : engine.roundSize (Engine.reachable status.current.index final) = 0) (fuel : Nat) :
    (Machine.mk engine 0 world).run (.constant (.ok status) remote) handler final fuel =
      (none, ⟨engine, 0, world⟩) := by
  induction fuel with
  | zero => rfl
  | succ fuel ih =>
      have stepped : (Machine.mk engine 0 world).step (.constant (.ok status) remote) handler
          final = .running ⟨engine, 0, world⟩ := by
        unfold step
        rw [Surroundings.cancelled_constant, if_neg Bool.false_ne_true]
        dsimp only
        rw [beginRound_of_ahead natural (congrArg Prod.fst (Surroundings.status_constant _ _ _))
          ahead, empty, Surroundings.status_constant]
      rw [run_of_running stepped, ih]

end Machine

/-- Where the status leaves something to ask for, a round begins.  Its end is computed exactly, and
makes room for progress, as long as the next index and the size of a round are together below the
largest signed word.  The round has a block to ask for exactly if it makes room for progress, which
is when the size of a round is not zero after wrapping around and fits above the next index. -/
theorem rounds_advance_iff (around : Surroundings σ) (world : σ) {final : Int64}
    {status : NetworkStatus} {engine : Engine} (concurrency : UInt64) (natural : 0 ≤ engine.next)
    (answer : (around.status world).1 = some (.ok status))
    (ahead : engine.next ≤ Engine.reachable status.current.index final) :
    let paced := engine.withConcurrency concurrency
    let last := Engine.reachable status.current.index final
    let most := 16 * max concurrency.toNat 1
    (Machine.mk paced 0 world).beginRound around final =
        .running ⟨paced, paced.roundSize last, (around.status world).2⟩ ∧
      (paced.Exact ∧ paced.Advances last ↔
        engine.next.toInt + most < 9223372036854775808) ∧
      (paced.Advances last ↔ 0 < most % 18446744073709551616 ∧
        engine.next.toInt + (most % 18446744073709551616 : Nat) ≤ 9223372036854775808) ∧
      (paced.roundSize last ≠ 0 ↔ paced.Advances last) := by
  intro paced last most
  have size : paced.span = most := engine.span_withConcurrency concurrency
  have naturalPaced : 0 ≤ paced.next := natural
  have aheadPaced : paced.next ≤ last := ahead
  have advances := Engine.advances_iff naturalPaced aheadPaced
  have reaches := Engine.le_roundEnd_iff naturalPaced aheadPaced
  have exact := Engine.exact_iff naturalPaced
  rw [size] at reaches exact
  refine ⟨Machine.beginRound_of_ahead naturalPaced answer aheadPaced,
    ⟨fun both => exact.1 both.1, fun small => ⟨exact.2 small, ?_⟩⟩, advances.trans reaches,
    Engine.roundSize_ne_zero_iff.trans advances.symm⟩
  have lower := Int64.le_iff_toInt_le.1 natural
  rw [Int64.toInt_zero] at lower
  rw [advances, reaches, Nat.mod_eq_of_lt (by omega)]
  change 0 < most ∧ engine.next.toInt + most ≤ 9223372036854775808
  omega

/-- With as many workers as leave the engine just enough room above index 15, a round goes all the
way to the tip. -/
theorem rounds_advance_iff_brink :
    let status : NetworkStatus := ⟨⟨40, "t"⟩, 0, ⟨0, "a"⟩, none, []⟩
    let engine : Engine := { Engine.standard with next := 15 }
    let paced := engine.withConcurrency 576460752303423487
    0 ≤ engine.next ∧ engine.next ≤ Engine.reachable status.current.index (-1) ∧
      paced.Exact ∧ paced.Advances 40 ∧ paced.roundSize 40 ≠ 0 ∧
      (Machine.mk paced 0 ()).beginRound (.constant (.ok status) fun _ => .ok none) (-1) =
        .running ⟨paced, paced.roundSize 40, ()⟩ := by
  intro status engine paced
  have natural : 0 ≤ engine.next := by decide
  have ahead : engine.next ≤ Engine.reachable status.current.index (-1) := by decide
  obtain ⟨begins, exact, -, some⟩ :=
    rounds_advance_iff (.constant (.ok status) fun _ => .ok none) () 576460752303423487 natural
      (congrArg Prod.fst (Surroundings.status_constant _ _ _)) ahead
  obtain ⟨fits, advances⟩ := exact.2 (by decide)
  exact ⟨natural, ahead, fits, advances, some.2 advances, begins⟩

/-- With twice as many, sixteen blocks for each worker are a negative word: every round ends before
it begins, and the run goes on for ever without a call. -/
theorem rounds_empty_crowded :
    let status : NetworkStatus := ⟨⟨2, "c"⟩, 0, ⟨0, "c"⟩, none, []⟩
    let paced := Engine.standard.withConcurrency 1152921504606846975
    let machine : Machine Unit := ⟨{ paced with next := 0 }, 0, ()⟩
    ¬machine.engine.Exact ∧ ¬machine.engine.Advances 2 ∧ machine.engine.roundEnd 2 = -17 ∧
      ∀ remote handler fuel, paced.sync (.constant (.ok status) remote) handler 0 2 fuel () =
        (none, machine) := by
  intro status paced machine
  have natural : 0 ≤ machine.engine.next := by decide
  have ahead : machine.engine.next ≤ Engine.reachable status.current.index 2 := by decide
  refine ⟨fun exact => ?_, fun advances => ?_, by decide, fun remote handler fuel => ?_⟩
  · exact absurd ((Engine.exact_iff natural).1 exact) (by decide)
  · exact absurd advances.next_le (by decide)
  · exact Machine.run_of_empty natural ahead (by decide) fuel

end ChainFollower.Sync
