import Mathlib.Data.Rat.Floor
import Mathlib.Tactic.IntervalCases
import Mathlib.Tactic.NormNum
import SchedulingService.Common.Retry

/-!
# The bounds of the backoff

The delay between two attempts is capped by `maxDelay` before the jitter is added,
so that a capped delay can come out longer than that. This module says when it does,
for options that are natural numbers.

Main result: `backoff_bounded_iff` — for which attempts, and in which calls, no wait
is longer than `maxDelay`.
-/

namespace SchedulingService.Common

open Js

/-! ## In whole numbers -/

section Backoff

/-- `min(baseDelay * multiplier ^ (attempt - 1), maxDelay)`. -/
def cappedNat (attempt baseDelay maxDelay multiplier : Nat) : Nat :=
  min (baseDelay * Nat.pow multiplier (attempt - 1)) maxDelay

variable {attempt baseDelay maxDelay multiplier : Nat}

theorem pow_fin (multiplier n : Nat) :
    Number.pow (.fin multiplier) n = .fin (Nat.pow multiplier n : Nat) := by
  induction n with
  | zero =>
    show Number.fin 1 = .fin ((1 : Nat) : ℚ)
    rw [Nat.cast_one]
  | succ n ih =>
    rw [Number.pow, ih]
    show Number.fin _ = .fin ((Nat.pow multiplier n * multiplier : Nat) : ℚ)
    rw [Nat.cast_mul]

theorem minimum_fin (a b : Nat) : Number.minimum (.fin a) (.fin b) = .fin (min a b : Nat) := by
  by_cases h : a < b
  · have hmin : min a b = a := Nat.min_eq_left h.le
    simp [Number.minimum, Number.lt, h, hmin]
  · have hmin : min a b = b := Nat.min_eq_right (by omega)
    simp [Number.minimum, Number.lt, h, hmin]

theorem cappedDelay_fin :
    cappedDelay .rationals attempt (.fin baseDelay) (.fin maxDelay) (.fin multiplier) =
      .fin (cappedNat attempt baseDelay maxDelay multiplier : Nat) := by
  have hproduct : Number.mul (.fin baseDelay) (.fin (Nat.pow multiplier (attempt - 1) : Nat)) =
      .fin (baseDelay * Nat.pow multiplier (attempt - 1) : Nat) := by
    rw [Nat.cast_mul]
    rfl
  show Number.minimum (Number.mul _ (Number.pow _ (attempt - 1))) _ = _
  rw [pow_fin, hproduct, minimum_fin, cappedNat]

theorem jitterCeiling_natCast (delay : Nat) :
    jitterCeiling .rationals (.fin delay) = .fin (max 1 (delay / 10) : Nat) := by
  have hfloor : ⌊1 / 10 * (delay : ℚ)⌋ = ((delay / 10 : Nat) : Int) := by
    have htenth : 1 / 10 * (delay : ℚ) = (delay : ℚ) / (10 : Nat) := by
      push_cast
      ring
    rw [htenth, Rat.floor_natCast_div_natCast]
    norm_cast
  show Number.maximum 1 (Number.fin (1 / 10 * (delay : ℚ))).floor = _
  rw [maximum_one_fin, hfloor]
  norm_cast

/-- The range is not empty, and `randomInt` turns one from 2⁴⁸ on down. -/
theorem int_natCast (random : RandomInt) (call : Nat) {n : Nat} (hn : 0 < n) :
    random.int call (.fin n) =
      if n < 281474976710656 then some (random.draw call n) else none := by
  have hmax : (n : ℚ) ≤ (maxRandomRange : ℚ) ↔ n < 281474976710656 := by
    rw [Nat.cast_le, maxRandomRange]
    omega
  have hpos : (0 : ℚ) < n := Nat.cast_pos.mpr hn
  simp [RandomInt.int, hmax, hpos]

theorem floor_addNat (delay jitter : Nat) :
    (Number.floor (.fin delay)).addNat jitter = .fin (delay + jitter : Nat) := by
  have hfloor : ⌊(delay : ℚ)⌋ = (delay : Int) := Int.floor_natCast delay
  have hwhole : Number.floor (.fin delay) = .fin ((⌊(delay : ℚ)⌋ : Int) : ℚ) := rfl
  rw [hwhole, hfloor, Number.addNat, Int.cast_natCast, Nat.cast_add]

/-- **The delay.** A drawn part of the tenth is added to what is capped already. -/
theorem calculateBackoffDelay_fin (random : RandomInt) {delay : Nat}
    (hdelay : cappedNat attempt baseDelay maxDelay multiplier = delay) :
    calculateBackoffDelay .rationals random attempt (.fin baseDelay) (.fin maxDelay)
        (.fin multiplier) =
      if delay < 2814749767106560 then
        some (.fin (delay + random.draw attempt (max 1 (delay / 10)) : Nat))
      else none := by
  have hpos : 0 < max 1 (delay / 10) := by omega
  have hrange : max 1 (delay / 10) < 281474976710656 ↔ delay < 2814749767106560 := by omega
  simp only [calculateBackoffDelay, cappedDelay_fin, hdelay, jitterCeiling_natCast,
    int_natCast _ _ hpos, hrange]
  split
  case isTrue h => rw [Option.map_some, floor_addNat]
  case isFalse h => rfl

/-- A generator that always draws the last number of its range. -/
def highest : RandomInt := ⟨fun _ n => n - 1, fun _ n h => by omega⟩

variable (attempt) in
theorem delay_le_iff {delay : Nat} (hdelay : delay ≤ maxDelay) :
    (∀ random : RandomInt, delay + random.draw attempt (max 1 (delay / 10)) ≤ maxDelay) ↔
      delay + delay / 10 ≤ maxDelay + 1 := by
  constructor
  · intro h
    -- the last number of the range is the worst
    have hhighest : delay + (max 1 (delay / 10) - 1) ≤ maxDelay := h highest
    omega
  · intro h random
    have hdrawn := random.draw_lt attempt (max 1 (delay / 10)) (by omega)
    omega

/-- An attempt is bounded exactly if the whole tenth but one fits below `maxDelay`. -/
theorem attempt_bounded_iff :
    ((∃ n : Nat, 0 < n ∧
        jitterCeiling .rationals
            (cappedDelay .rationals attempt (.fin baseDelay) (.fin maxDelay) (.fin multiplier)) =
          .fin n) ∧
      ∀ random : RandomInt, ∃ d : Nat,
        calculateBackoffDelay .rationals random attempt (.fin baseDelay) (.fin maxDelay)
            (.fin multiplier) =
          some (.fin d) ∧
        cappedNat attempt baseDelay maxDelay multiplier ≤ d ∧ d ≤ maxDelay) ↔
    cappedNat attempt baseDelay maxDelay multiplier < 2814749767106560 ∧
      cappedNat attempt baseDelay maxDelay multiplier +
        cappedNat attempt baseDelay maxDelay multiplier / 10 ≤ maxDelay + 1 := by
  generalize hdelay : cappedNat attempt baseDelay maxDelay multiplier = delay
  have hle : delay ≤ maxDelay := hdelay ▸ Nat.min_le_right _ _
  rw [← delay_le_iff attempt hle]
  constructor
  · rintro ⟨-, hbounded⟩
    -- out of reach of `randomInt`, nothing is given at all
    have hgiven : delay < 2814749767106560 := by
      by_contra hout
      obtain ⟨d, hd, -⟩ := hbounded highest
      rw [calculateBackoffDelay_fin highest hdelay, if_neg hout] at hd
      exact absurd hd (by simp)
    refine ⟨hgiven, fun random => ?_⟩
    obtain ⟨d, hd, -, hmax⟩ := hbounded random
    rw [calculateBackoffDelay_fin random hdelay, if_pos hgiven] at hd
    have hsame := Number.fin.inj (Option.some.inj hd)
    rw [Nat.cast_inj] at hsame
    omega
  · rintro ⟨hgiven, hmax⟩
    refine ⟨⟨max 1 (delay / 10), by omega, ?_⟩, fun random => ⟨_, ?_, Nat.le_add_right _ _,
      hmax random⟩⟩
    · rw [cappedDelay_fin, hdelay, jitterCeiling_natCast]
    · rw [calculateBackoffDelay_fin random hdelay, if_pos hgiven]

end Backoff

/-! ## The sleeps of a call -/

section Sleeps

variable {α : Type*} {operation : Nat → Outcome α} {options : RetryOptions} {random : RandomInt}
  {lastError error : Value} {left attempt j : Nat} {sleeps : List Number} {d : Number}

variable (operation options random lastError left attempt sleeps) in
/-- An attempt that is not retried is followed by no sleep. -/
theorem executeFrom_goes_or_ends :
    (executeFrom .rationals operation options random lastError (left + 1) attempt sleeps).sleeps =
        sleeps ∨
    ∃ error d, options.retries error = some true ∧ attempt ≠ options.maxAttempts ∧
      options.delay .rationals random attempt = some d ∧
      executeFrom .rationals operation options random lastError (left + 1) attempt sleeps =
        executeFrom .rationals operation options random error left (attempt + 1) (d :: sleeps) := by
  rcases hop : operation attempt with a | error
  · exact .inl (by simp [executeFrom, hop])
  -- the comparison throws, turns the error down or has it retried
  rcases hretries : options.retries error with _ | _ | _
  · exact .inl (by simp [executeFrom, hop, hretries])
  · exact .inl (by simp [executeFrom, hop, hretries])
  by_cases hlast : attempt = options.maxAttempts
  · left
    rw [executeFrom, hop]
    simp only [hretries, if_pos hlast]
  -- `randomInt` throws, or then the warning
  rcases hdelay : options.delay .rationals random attempt with _ | d
  · left
    rw [RetryOptions.delay] at hdelay
    simp [executeFrom, hop, hretries, hlast, hdelay]
  cases hnullish : error.isNullish with
  | true =>
    left
    rw [RetryOptions.delay] at hdelay
    simp [executeFrom, hop, hretries, hlast, hdelay, hnullish]
  | false =>
    exact .inr ⟨error, d, hretries, hlast, rfl,
      executeFrom_goes .rationals random lastError left sleeps hop hretries hlast hdelay hnullish⟩

/-- Whatever is slept is the delay after an attempt that is not the last. -/
theorem delay_of_mem_sleeps (hleft : left + attempt = options.maxAttempts + 1)
    (h : d ∈
      (executeFrom .rationals operation options random lastError left attempt sleeps).sleeps) :
    d ∈ sleeps ∨ ∃ i error, attempt ≤ i ∧ i < options.maxAttempts ∧
      options.retries error = some true ∧ options.delay .rationals random i = some d := by
  induction left generalizing lastError attempt sleeps with
  | zero => exact .inl h
  | succ left ih =>
    rcases executeFrom_goes_or_ends operation options random lastError left attempt sleeps with
      hends | ⟨error, delay, hretries, hlast, hdelay, hgoes⟩
    · rw [hends] at h
      exact .inl h
    · rw [hgoes] at h
      rcases ih (by omega) h with hmem | ⟨i, error', hi, hlt, hretried, hgiven⟩
      · rcases List.mem_cons.mp hmem with rfl | hbefore
        · exact .inr ⟨attempt, error, Nat.le_refl _, by omega, hretries, hdelay⟩
        · exact .inl hbefore
      · exact .inr ⟨i, error', by omega, hlt, hretried, hgiven⟩

/-- What has been slept stays in the record. -/
theorem mem_sleeps_of_mem (h : d ∈ sleeps) :
    d ∈ (executeFrom .rationals operation options random lastError left attempt sleeps).sleeps := by
  induction left generalizing lastError attempt sleeps with
  | zero => exact h
  | succ left ih =>
    rcases executeFrom_goes_or_ends operation options random lastError left attempt sleeps with
      hends | ⟨error, delay, -, -, -, hgoes⟩
    · rw [hends]
      exact h
    · rw [hgoes]
      exact ih (List.mem_cons_of_mem delay h)

/-- Where every attempt fails, every delay that is given is slept, up to the last
attempt. -/
theorem mem_sleeps_of_failing (hop : ∀ i, operation i = .thrown error)
    (hretries : options.retries error = some true) (hnullish : error.isNullish = false)
    (hleft : left + attempt = options.maxAttempts + 1) (hj : attempt ≤ j)
    (hmax : j < options.maxAttempts)
    (hgiven : ∀ i, attempt ≤ i → i < j → options.delay .rationals random i ≠ none)
    (hdelay : options.delay .rationals random j = some d) :
    d ∈ (executeFrom .rationals operation options random lastError left attempt sleeps).sleeps := by
  induction left generalizing lastError attempt sleeps with
  | zero => omega
  | succ left ih =>
    by_cases hfirst : attempt = j
    · -- slept now, and kept from then on
      subst hfirst
      rw [executeFrom_goes .rationals random lastError left sleeps (hop attempt) hretries
        (by omega) hdelay hnullish]
      exact mem_sleeps_of_mem List.mem_cons_self
    · obtain ⟨delay, hsome⟩ :=
        Option.ne_none_iff_exists'.mp (hgiven attempt (Nat.le_refl _) (by omega))
      rw [executeFrom_goes .rationals random lastError left sleeps (hop attempt) hretries
        (by omega) hsome hnullish]
      exact ih (by omega) (by omega) fun i hi => hgiven i (by omega)

end Sleeps

/-! ## The bounds -/

/-- Options that are natural numbers. -/
def naturalOptions (maxAttempts baseDelay maxDelay multiplier : Nat)
    (retryableErrors : Option (List String)) : RetryOptions where
  maxAttempts := maxAttempts
  baseDelay := .fin baseDelay
  maxDelay := .fin maxDelay
  backoffMultiplier := .fin multiplier
  retryableErrors := retryableErrors

theorem cappedNat_mono {i j baseDelay maxDelay multiplier : Nat} (hmultiplier : 1 ≤ multiplier)
    (hij : i ≤ j) :
    cappedNat i baseDelay maxDelay multiplier ≤ cappedNat j baseDelay maxDelay multiplier := by
  have hpow : Nat.pow multiplier (i - 1) ≤ Nat.pow multiplier (j - 1) :=
    Nat.pow_le_pow_right hmultiplier (by omega)
  have hproduct := Nat.mul_le_mul_left baseDelay hpow
  unfold cappedNat
  omega

/-- Unless the list is empty, some error is retried. -/
theorem exists_retried {options : RetryOptions} (h : options.retryableErrors ≠ some []) :
    ∃ error, options.retries error = some true ∧ error.isNullish = false := by
  unfold RetryOptions.retries
  -- any error without a list, else one that is named by its first text
  rcases hlist : options.retryableErrors with _ | _ | ⟨errorType, rest⟩
  · exact ⟨.bool true, rfl, rfl⟩
  · exact absurd hlist h
  · refine ⟨.obj [("name", .str errorType)], ?_, rfl⟩
    simp [isRetryableError, Value.isNullish, Value.get, includes]

theorem waits_bounded_iff (α : Type*) {maxAttempts baseDelay maxDelay multiplier : Nat}
    {retryableErrors : Option (List String)} (hmultiplier : 1 ≤ multiplier) :
    (∀ (operation : Nat → Outcome α) (random : RandomInt),
      ∀ d ∈ (executeWithRetry .rationals operation
        (naturalOptions maxAttempts baseDelay maxDelay multiplier retryableErrors) random).sleeps,
        d.le (.fin maxDelay) = true) ↔
    retryableErrors = some [] ∨ ∀ j, 1 ≤ j → j < maxAttempts →
      cappedNat j baseDelay maxDelay multiplier < 2814749767106560 →
      cappedNat j baseDelay maxDelay multiplier +
        cappedNat j baseDelay maxDelay multiplier / 10 ≤ maxDelay + 1 := by
  have hle : ∀ j, cappedNat j baseDelay maxDelay multiplier ≤ maxDelay :=
    fun j => Nat.min_le_right _ _
  constructor
  · intro hbounded
    by_cases hlist : retryableErrors = some []
    · exact .inl hlist
    refine .inr fun j hj hmax hrange => ?_
    have hlist' : (naturalOptions maxAttempts baseDelay maxDelay multiplier
        retryableErrors).retryableErrors ≠ some [] := hlist
    obtain ⟨error, hretries, hnullish⟩ := exists_retried hlist'
    rw [← delay_le_iff j (hle j)]
    intro random
    have hdelay := (calculateBackoffDelay_fin random rfl).trans (if_pos hrange)
    have hgiven : ∀ i, 1 ≤ i → i < j → (naturalOptions maxAttempts baseDelay maxDelay multiplier
        retryableErrors).delay .rationals random i ≠ none := by
      intro i _ hij
      have hbefore : cappedNat i baseDelay maxDelay multiplier < 2814749767106560 :=
        Nat.lt_of_le_of_lt (cappedNat_mono hmultiplier hij.le) hrange
      rw [RetryOptions.delay, naturalOptions, calculateBackoffDelay_fin random rfl, if_pos hbefore]
      exact Option.some_ne_none _
    -- an operation that always fails sleeps that long
    have hbound := hbounded (fun _ => .thrown error) random _
      (mem_sleeps_of_failing (fun _ => rfl) hretries hnullish rfl hj hmax hgiven hdelay)
    rw [Number.le, decide_eq_true_eq, Nat.cast_le] at hbound
    exact hbound
  · intro hcases operation random d hd
    rcases delay_of_mem_sleeps rfl hd with hnone | ⟨j, error, hj, hmax, hretries, hdelay⟩
    · exact absurd hnone List.not_mem_nil
    · rcases hcases with hempty | hall
      · subst hempty
        exact absurd hretries (by simp [naturalOptions, RetryOptions.retries, isRetryableError])
      · rw [RetryOptions.delay, naturalOptions, calculateBackoffDelay_fin random rfl] at hdelay
        split at hdelay
        case isTrue hrange =>
          obtain rfl := Option.some.inj hdelay
          have hbound := (delay_le_iff j (hle j)).mpr (hall j hj hmax hrange) random
          rw [Number.le, decide_eq_true_eq, Nat.cast_le]
          exact hbound
        case isFalse => exact absurd hdelay (by simp)

/-- **The bounds of the backoff.** A delay is given that is not below the capped one
and not above `maxDelay`, whatever is drawn, exactly if the capped delay and its tenth
are not above `maxDelay + 1` (and the tenth is in reach of `randomInt`); and no wait of a
call is longer than `maxDelay` exactly if that holds of every attempt but the last. -/
theorem backoff_bounded_iff (α : Type*) (baseDelay maxDelay multiplier : Nat)
    (hmultiplier : 1 ≤ multiplier) :
    (∀ attempt, 1 ≤ attempt →
      (((∃ n : Nat, 0 < n ∧ jitterCeiling .rationals (cappedDelay .rationals attempt
            (.fin baseDelay) (.fin maxDelay) (.fin multiplier)) = .fin n) ∧
        ∀ random : RandomInt, ∃ d : Nat,
          calculateBackoffDelay .rationals random attempt (.fin baseDelay) (.fin maxDelay)
            (.fin multiplier) = some (.fin d) ∧
          cappedNat attempt baseDelay maxDelay multiplier ≤ d ∧ d ≤ maxDelay) ↔
      cappedNat attempt baseDelay maxDelay multiplier < 2814749767106560 ∧
        cappedNat attempt baseDelay maxDelay multiplier +
          cappedNat attempt baseDelay maxDelay multiplier / 10 ≤ maxDelay + 1)) ∧
    ∀ maxAttempts retryableErrors,
      ((∀ (operation : Nat → Outcome α) (random : RandomInt),
        ∀ d ∈ (executeWithRetry .rationals operation
          (naturalOptions maxAttempts baseDelay maxDelay multiplier retryableErrors)
            random).sleeps, d.le (.fin maxDelay) = true) ↔
      retryableErrors = some [] ∨ ∀ j, 1 ≤ j → j < maxAttempts →
        cappedNat j baseDelay maxDelay multiplier < 2814749767106560 →
        cappedNat j baseDelay maxDelay multiplier +
          cappedNat j baseDelay maxDelay multiplier / 10 ≤ maxDelay + 1) :=
  ⟨fun _ _ => attempt_bounded_iff, fun _ _ => waits_bounded_iff α hmultiplier⟩

/-- The three attempts of the default options stay below their cap. -/
theorem backoff_bounded_default : 1 ≤ 2 ∧
    (∀ random : RandomInt, ∃ d : Nat,
      calculateBackoffDelay .rationals random 3 (.fin 1000) (.fin 30000) (.fin 2) = some (.fin d) ∧
      4000 ≤ d ∧ d ≤ 30000) ∧
    ∀ (operation : Nat → Outcome String) (random : RandomInt),
      ∀ d ∈ (executeWithRetry .rationals operation getDefaultRetryOptions random).sleeps,
        d.le (.fin 30000) = true := by
  have hbounds := backoff_bounded_iff String 1000 30000 2 (by decide)
  have hcapped : ∀ j, 1 ≤ j → j < 4 → cappedNat j 1000 30000 2 ≤ 4000 := by
    intro j hj hlt
    interval_cases j <;> decide
  refine ⟨by decide, ((hbounds.1 3 (by decide)).mpr ?_).2, ?_⟩
  · have hthird := hcapped 3 (by decide) (by decide)
    omega
  · refine (hbounds.2 3 _).mpr (.inr fun j hj hlt _ => ?_)
    have hcap := hcapped j hj (by omega)
    omega

/-- At its cap of 30000 the delay can come out as 32999, and is slept. -/
theorem backoff_above_maxDelay :
    calculateBackoffDelay .rationals highest 6 (.fin 1000) (.fin 30000) (.fin 2) =
      some (.fin 32999) ∧
    (Number.fin 32999).le (.fin 30000) = false ∧
    .fin 32999 ∈ (executeWithRetry .rationals (fun _ => (.thrown (.bool true) : Outcome String))
      (naturalOptions 7 1000 30000 2 none) highest).sleeps := by
  have hcapped : cappedNat 6 1000 30000 2 = 30000 := by decide
  have hdelay : calculateBackoffDelay .rationals highest 6 (.fin 1000) (.fin 30000) (.fin 2) =
      some (.fin 32999) := calculateBackoffDelay_fin highest hcapped
  refine ⟨hdelay, by decide +kernel, ?_⟩
  refine mem_sleeps_of_failing (fun _ => rfl) rfl rfl rfl (by decide) (by decide)
    (fun i hi hlt => ?_) hdelay
  have hgiven : cappedNat i 1000 30000 2 < 2814749767106560 :=
    Nat.lt_of_le_of_lt (Nat.min_le_right _ _) (by decide)
  rw [RetryOptions.delay, naturalOptions, calculateBackoffDelay_fin highest rfl, if_pos hgiven]
  exact Option.some_ne_none _

end SchedulingService.Common
