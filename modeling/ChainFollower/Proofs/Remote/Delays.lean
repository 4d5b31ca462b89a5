import ChainFollower.Remote.Backoff
import Mathlib.Algebra.Group.Nat.Defs

/-!
# How long is waited

Spans of time are compared by their nanoseconds, as numbers.  The wait before a retry is the first
wait doubled for every earlier retry, or the longest wait if that is shorter, whatever is lost where
the product stops at the longest span there is.
-/

namespace ChainFollower

/-! ## Spans as numbers -/

namespace Duration

variable (span left right : Duration)

theorem toNanos_le_longest : span.toNanos ≤ longest.toNanos := by
  have seconds := span.seconds_lt
  have nanos := span.nanos_lt
  simp only [toNanos, longest]
  omega

/-- A multiple is exact up to the longest span. -/
theorem toNanos_scale (factor : Nat) :
    (span.scale factor).toNanos = min longest.toNanos (span.toNanos * factor) := by
  have product : span.toNanos * factor =
      span.seconds * factor * 1000000000 + span.nanos * factor := by
    rw [toNanos, Nat.add_mul, Nat.mul_right_comm]
  unfold scale
  dsimp only
  split
  next fits =>
    have exact : (span.seconds * factor + span.nanos * factor / 1000000000) * 1000000000 +
        span.nanos * factor % 1000000000 = span.toNanos * factor := by
      rw [product]
      omega
    have most : span.toNanos * factor ≤ longest.toNanos := by
      rw [← exact]
      exact toNanos_le_longest ⟨_, _, fits, Nat.mod_lt _ (by decide)⟩
    exact exact.trans (Nat.min_eq_right most).symm
  next passes =>
    refine (Nat.min_eq_left ?_).symm
    rw [product]
    simp only [toNanos, longest]
    omega

theorem shorter_iff : left.shorter right = true ↔ left.toNanos < right.toNanos := by
  have leftNanos := left.nanos_lt
  have rightNanos := right.nanos_lt
  simp only [shorter, toNanos, Bool.or_eq_true, Bool.and_eq_true, decide_eq_true_eq, beq_iff_eq]
  omega

theorem toNanos_least : (left.least right).toNanos = min left.toNanos right.toNanos := by
  unfold least
  split
  next shorter =>
    exact (Nat.min_eq_right (Nat.le_of_lt ((shorter_iff _ _).1 shorter))).symm
  next notShorter =>
    have order : ¬right.toNanos < left.toNanos := fun less => notShorter ((shorter_iff _ _).2 less)
    exact (Nat.min_eq_left (Nat.not_lt.1 order)).symm

end Duration

namespace Remote.Backoff

/-! ## Doubling -/

theorem factor_of_lt {earlier : Nat} (few : earlier < 32) : factor earlier = 2 ^ earlier :=
  if_pos few

theorem factor_of_le {earlier : Nat} (many : 32 ≤ earlier) : factor earlier = 4294967295 :=
  if_neg (Nat.not_lt.2 many)

/-- The doubling is a 32-bit word. -/
theorem factor_le (earlier : Nat) : factor earlier ≤ 4294967295 := by
  by_cases few : earlier < 32
  · rw [factor_of_lt few]
    have most : 2 ^ earlier ≤ 2 ^ 31 := Nat.pow_le_pow_right (by decide) (by omega)
    omega
  · exact Nat.le_of_eq (factor_of_le (Nat.not_lt.1 few))

/-- It does not fall, also where it stops. -/
theorem factor_mono {earlier later : Nat} (order : earlier ≤ later) :
    factor earlier ≤ factor later := by
  by_cases few : later < 32
  · rw [factor_of_lt few, factor_of_lt (by omega)]
    exact Nat.pow_le_pow_right (by decide) order
  · rw [factor_of_le (Nat.not_lt.1 few)]
    exact factor_le earlier

/-! ## Waits -/

variable {backoff : Backoff} {retry later : UInt32}

theorem delay?_eq_none_iff :
    backoff.delay? retry = none ↔ retry = 0 ∨ backoff.retries < retry := by
  unfold delay?
  split
  next spent => exact ⟨fun _ => spent, fun _ => rfl⟩
  next left => exact ⟨nofun, fun spent => absurd spent left⟩

/-- A wait in nanoseconds. -/
theorem toNanos_delay {delay : Duration} (waits : backoff.delay? retry = some delay) :
    delay.toNanos =
      min backoff.longest.toNanos (backoff.initial.toNanos * factor (retry.toNat - 1)) := by
  unfold delay? at waits
  split at waits
  next => nomatch waits
  next =>
    cases waits
    have most := backoff.longest.toNanos_le_longest
    rw [Duration.toNanos_least, Duration.toNanos_scale]
    omega

/-- Every word on the way to a wait is the number it stands for, where nothing checks it: the number
of earlier retries, the doubling as a shift, and the product of the nanoseconds. -/
structure Exact (backoff : Backoff) (retry : UInt32) : Prop where
  earlier : (retry - 1).toNat = retry.toNat - 1
  doubling : retry.toNat ≤ 32 →
    ((1 : UInt32) <<< (retry - 1)).toNat = factor (retry.toNat - 1)
  nanos : (UInt64.ofNat backoff.initial.nanos * UInt64.ofNat (factor (retry.toNat - 1))).toNat =
    backoff.initial.nanos * factor (retry.toNat - 1)

theorem exact_of_ne_zero (counted : retry ≠ 0) : backoff.Exact retry := by
  have positive : 1 ≤ retry.toNat :=
    Nat.one_le_iff_ne_zero.2 fun zero => counted (UInt32.toNat_inj.1 zero)
  have earlier : (retry - 1).toNat = retry.toNat - 1 :=
    UInt32.toNat_sub_of_le _ _ (UInt32.le_iff_toNat_le.2 positive)
  refine ⟨earlier, fun few => ?_, ?_⟩
  · have within : retry.toNat - 1 < 32 := by omega
    have fits : 2 ^ (retry.toNat - 1) < 2 ^ 32 := Nat.pow_lt_pow_right (by decide) within
    rw [UInt32.toNat_shiftLeft, earlier, factor_of_lt within, Nat.mod_eq_of_lt within,
      UInt32.toNat_one, Nat.shiftLeft_eq, Nat.one_mul]
    exact Nat.mod_eq_of_lt fits
  · have bound := factor_le (retry.toNat - 1)
    have below := backoff.initial.nanos_lt
    have product : backoff.initial.nanos * factor (retry.toNat - 1) ≤ 999999999 * 4294967295 :=
      Nat.mul_le_mul (by omega) bound
    have left : backoff.initial.nanos < UInt64.size := by
      change _ < 18446744073709551616
      omega
    have right : factor (retry.toNat - 1) < UInt64.size := by
      change _ < 18446744073709551616
      omega
    rw [UInt64.toNat_mul, UInt64.toNat_ofNat_of_lt' left, UInt64.toNat_ofNat_of_lt' right]
    exact Nat.mod_eq_of_lt (by omega)

/-- The wait before a retry is the first wait doubled for every earlier retry, up to the
thirty-second doubling and up to the longest wait; there is one for each retry that is left. -/
theorem delay_doubles_capped (backoff : Backoff) (retry : UInt32) :
    (backoff.delay? retry = none ↔ retry = 0 ∨ backoff.retries < retry) ∧
      ∀ delay, backoff.delay? retry = some delay →
        delay.toNanos ≤ backoff.longest.toNanos ∧
        (∀ later following, retry ≤ later → backoff.delay? later = some following →
          delay.toNanos ≤ following.toNanos) ∧
        (retry ≤ 32 → delay.toNanos =
          min backoff.longest.toNanos (backoff.initial.toNanos * 2 ^ (retry.toNat - 1))) ∧
        (32 < retry → delay.toNanos =
          min backoff.longest.toNanos (backoff.initial.toNanos * (2 ^ 32 - 1))) ∧
        backoff.Exact retry := by
  refine ⟨delay?_eq_none_iff, fun delay waits => ?_⟩
  have counted : retry ≠ 0 := fun zero =>
    nomatch (delay?_eq_none_iff.2 (Or.inl zero)).symm.trans waits
  have value := toNanos_delay waits
  refine ⟨?_, fun later following order waitsLater => ?_, fun few => ?_, fun many => ?_,
    exact_of_ne_zero counted⟩
  · rw [value]
    exact Nat.min_le_left _ _
  · have rises : factor (retry.toNat - 1) ≤ factor (later.toNat - 1) :=
      factor_mono (Nat.sub_le_sub_right (UInt32.le_iff_toNat_le.1 order) 1)
    rw [value, toNanos_delay waitsLater]
    have products := Nat.mul_le_mul_left backoff.initial.toNanos rises
    omega
  · have bound : retry.toNat ≤ 32 := UInt32.le_iff_toNat_le.1 few
    have positive : 1 ≤ retry.toNat :=
      Nat.one_le_iff_ne_zero.2 fun zero => counted (UInt32.toNat_inj.1 zero)
    rw [value, factor_of_lt (by omega)]
  · have bound : 32 < retry.toNat := UInt32.lt_iff_toNat_lt.1 many
    rw [value, factor_of_le (by omega)]
    rfl

/-- The thirty-second wait is right although the product passes the longest span there is. -/
theorem delay_doubles_capped_saturated :
    let backoff : Backoff := ⟨.ofSeconds 10000000000, .ofSeconds 18446744073709551615, 40⟩
    ∃ delay, backoff.delay? 32 = some delay ∧
      Duration.longest.toNanos < backoff.initial.toNanos * 2 ^ 31 ∧
      delay.toNanos = min backoff.longest.toNanos (backoff.initial.toNanos * 2 ^ (32 - 1)) := by
  intro backoff
  have waits : backoff.delay? 32 =
      some ((backoff.initial.scale (factor 31)).least backoff.longest) := rfl
  exact ⟨_, waits, by decide, ((delay_doubles_capped backoff 32).2 _ waits).2.2.1 (by decide)⟩

end Remote.Backoff

end ChainFollower
