import Mathlib.Data.List.Infix
import Mathlib.Order.Bounds.Basic
import SchedulingService.Js.Arithmetic

/-!
# `RetryUtil`

An operation is attempted until it succeeds, fails for good or has failed
`maxAttempts` times, with a sleep between two attempts. What it throws may be any
value, and the code reads `name` and `message` of it.

Main results:

* `executeFrom_spec` — what the loop does from an attempt on;
* `transparent_iff` — for which operations and options the retries show nothing of
  themselves.
-/

namespace SchedulingService.Common

open Js

structure RetryOptions where
  maxAttempts : Nat
  baseDelay : Number
  maxDelay : Number
  backoffMultiplier : Number
  retryableErrors : Option (List String)

/-- What one invocation comes to. -/
inductive Outcome (α : Type*)
  | value (a : α)
  | thrown (error : Value)

/-- How a call ends. An error that the code makes itself is a new one and none of
those thrown by the operation. -/
inductive Settled (α : Type*)
  | resolved (a : α)
  | rejected (error : Value)
  | internalError

/-- A call: how often it invoked the operation, its sleeps and its end. -/
structure Record (α : Type*) where
  invocations : Nat
  sleeps : List Number
  settled : Settled α

/-! ## Which errors are retried -/

/-- `v.includes(text)`; `none` where `v` has no such method. -/
def includes : Value → String → Option Bool
  | .str s, text => some (decide (text.toList <:+: s.toList))
  | .arr xs, text => some (xs.any fun
      | .str s => s = text
      | _ => false)
  | _, _ => none

/-- `isRetryableError`; `none` is a TypeError. -/
def isRetryableError (error : Value) : List String → Option Bool
  | [] => some false
  | errorType :: rest =>
    if error.isNullish then none
    else do
      if ← includes (error.get "name") errorType then some true
      else if ← includes (error.get "message") errorType then some true
      else isRetryableError error rest

/-- Whether the error is retried, as far as the list goes. -/
def RetryOptions.retries (options : RetryOptions) (error : Value) : Option Bool :=
  match options.retryableErrors with
  | none => some true
  | some retryableErrors => isRetryableError error retryableErrors

/-! ## The backoff -/

/-- `crypto.randomInt(0, n)`, by call. -/
structure RandomInt where
  draw : Nat → Nat → Nat
  draw_lt : ∀ call n, 0 < n → draw call n < n

/-- The largest range of `randomInt`. -/
def maxRandomRange : Nat := 281474976710655

/-- `randomInt(0, max)`: it throws unless `max` is an integer within its range. -/
def RandomInt.int (random : RandomInt) (call : Nat) : Number → Option Nat
  | .fin q =>
    if q.den = 1 ∧ 0 < q ∧ q ≤ (maxRandomRange : ℚ) then some (random.draw call q.num.toNat)
    else none
  | _ => none

section Delay

variable (A : Arithmetic)

/-- `Math.max(1, Math.floor(0.1 * delay))`. -/
def jitterCeiling (delay : Number) : Number :=
  Number.maximum 1 (A.mul (A.literal (1 / 10)) delay).floor

/-- `Math.min(baseDelay * Math.pow(multiplier, attempt - 1), maxDelay)`. -/
def cappedDelay (attempt : Nat) (baseDelay maxDelay multiplier : Number) : Number :=
  Number.minimum (A.mul baseDelay (A.pow multiplier (attempt - 1))) maxDelay

/-- `calculateBackoffDelay`; `none` where `randomInt` throws. -/
def calculateBackoffDelay (random : RandomInt) (attempt : Nat)
    (baseDelay maxDelay multiplier : Number) : Option Number :=
  let delay := cappedDelay A attempt baseDelay maxDelay multiplier
  (random.int attempt (jitterCeiling A delay)).map fun jitter => delay.floor.addNat jitter

/-- The delay after an attempt. -/
def RetryOptions.delay (options : RetryOptions) (random : RandomInt) (attempt : Nat) :
    Option Number :=
  calculateBackoffDelay A random attempt options.baseDelay options.maxDelay
    options.backoffMultiplier

end Delay

/-! ## The loop -/

section Retry

variable (A : Arithmetic) {α : Type*} (operation : Nat → Outcome α) (options : RetryOptions)
  (random : RandomInt)

/-- The loop from `attempt` on, with `left` attempts left; `lastError` is what the
attempt before threw. -/
def executeFrom (lastError : Value) : Nat → Nat → List Number → Record α
  | 0, attempt, sleeps => ⟨attempt - 1, sleeps, .rejected lastError⟩
  | left + 1, attempt, sleeps =>
    match operation attempt with
    | .value a => ⟨attempt, sleeps, .resolved a⟩
    | .thrown error =>
      match options.retries error with
      | none => ⟨attempt, sleeps, .internalError⟩
      | some false => ⟨attempt, sleeps, .rejected error⟩
      | some true =>
        if attempt = options.maxAttempts then ⟨attempt, sleeps, .rejected error⟩
        else match calculateBackoffDelay A random attempt options.baseDelay options.maxDelay
            options.backoffMultiplier with
          | none => ⟨attempt, sleeps, .internalError⟩
          | some delay =>
            -- the warning reads `error.message`
            if error.isNullish then ⟨attempt, sleeps, .internalError⟩
            else executeFrom error left (attempt + 1) (delay :: sleeps)

/-- `new Error('Retry failed with no error captured')`. -/
def noErrorCaptured : Value :=
  .obj [("name", .str "Error"), ("message", .str "Retry failed with no error captured")]

def executeWithRetry : Record α :=
  executeFrom A operation options random noErrorCaptured options.maxAttempts 1 []

end Retry

/-! ## What a call should show -/

/-- How a call ends that shows only the outcome of one invocation. -/
def Outcome.settled {α : Type*} : Outcome α → Settled α
  | .value a => .resolved a
  | .thrown error => .rejected error

/-- An error is retried if its name or its message mentions one of the texts listed,
and without a list always. -/
def Retryable (options : RetryOptions) (error : Value) : Prop :=
  ∀ retryableErrors, options.retryableErrors = some retryableErrors →
    ∃ errorType ∈ retryableErrors, includes (error.get "name") errorType = some true ∨
      includes (error.get "message") errorType = some true

/-- `v` has a method `includes`. -/
def HasIncludes (v : Value) : Prop := (∃ s, v = .str s) ∨ ∃ xs, v = .arr xs

/-- What is compared with the list has the method. The message is not looked at where
the name mentions the first text. -/
def Comparable (error : Value) : List String → Prop
  | [] => True
  | errorType :: _ => HasIncludes (error.get "name") ∧
      (HasIncludes (error.get "message") ∨ includes (error.get "name") errorType = some true)

/-- The delay after an attempt is in reach of `randomInt`, that takes ranges below
2⁴⁸ and gets a tenth of it. -/
def RetryOptions.InRange (A : Arithmetic) (options : RetryOptions) (attempt : Nat) : Prop :=
  (jitterCeiling A (cappedDelay A attempt options.baseDelay options.maxDelay
    options.backoffMultiplier)).lt (.fin 281474976710656) = true

section Specification

variable {α : Type*} (operation : Nat → Outcome α) (options : RetryOptions)

/-- Invocation `j` is the last: it succeeds, fails with an error that is not retried,
or there are no more. -/
def Stops (j : Nat) : Prop :=
  (∃ a, operation j = .value a) ∨
    (∃ error, operation j = .thrown error ∧ ¬ Retryable options error) ∨
    j = options.maxAttempts

/-- The call makes `k` invocations with a sleep between two, and ends as the last of
them. -/
structure Transparent (record : Record α) (k : Nat) : Prop where
  invocations : record.invocations = k
  settled : record.settled = (operation k).settled
  sleeps : record.sleeps.length = k - 1

/-- The code makes no error of its own in the invocations `first` to `k`. -/
structure Smooth (A : Arithmetic) (first k : Nat) : Prop where
  comparable : ∀ j, first ≤ j → j ≤ k → ∀ error, operation j = .thrown error →
    ∀ retryableErrors, options.retryableErrors = some retryableErrors →
      Comparable error retryableErrors
  between : ∀ j, first ≤ j → j < k → ∀ error, operation j = .thrown error →
    error.isNullish = false ∧ options.InRange A j

end Specification

/-! ## When the code makes no error of its own -/

theorem includes_eq_none_iff {v : Value} (text : String) :
    includes v text = none ↔ ¬ HasIncludes v := by
  cases v <;> simp [includes, HasIncludes]

theorem isNullish_of_get {error : Value} {key : String} (h : HasIncludes (error.get key)) :
    error.isNullish = false := by
  cases error <;> simp_all [HasIncludes, Value.get, Value.isNullish]

/-- With both texts readable the comparison is a search. -/
theorem isRetryableError_of_hasIncludes {error : Value} (hname : HasIncludes (error.get "name"))
    (hmessage : HasIncludes (error.get "message")) (retryableErrors : List String) :
    isRetryableError error retryableErrors ≠ none := by
  induction retryableErrors with
  | nil => simp [isRetryableError]
  | cons errorType rest ih =>
    obtain ⟨inName, hn⟩ := Option.ne_none_iff_exists'.mp
      fun h => (includes_eq_none_iff errorType).mp h hname
    obtain ⟨inMessage, hm⟩ := Option.ne_none_iff_exists'.mp
      fun h => (includes_eq_none_iff errorType).mp h hmessage
    cases inName <;> cases inMessage <;>
      simp [isRetryableError, isNullish_of_get hname, hn, hm, ih]

/-- **The comparison** throws exactly where what it reads has no `includes`. -/
theorem isRetryableError_ne_none_iff {error : Value} {retryableErrors : List String} :
    isRetryableError error retryableErrors ≠ none ↔ Comparable error retryableErrors := by
  cases retryableErrors with
  | nil => simp [isRetryableError, Comparable]
  | cons errorType rest =>
    by_cases hname : HasIncludes (error.get "name")
    · by_cases hmessage : HasIncludes (error.get "message")
      · have hread := isRetryableError_of_hasIncludes hname hmessage (errorType :: rest)
        simp [Comparable, hname, hmessage, hread]
      · -- the first text decides: if the name does not mention it, the message is read
        have hnone : includes (error.get "message") errorType = none :=
          (includes_eq_none_iff errorType).mpr hmessage
        obtain ⟨inName, hn⟩ := Option.ne_none_iff_exists'.mp
          fun h => (includes_eq_none_iff errorType).mp h hname
        cases inName <;>
          simp [isRetryableError, Comparable, isNullish_of_get hname, hn, hnone, hname, hmessage]
    · have hnone : includes (error.get "name") errorType = none :=
        (includes_eq_none_iff errorType).mpr hname
      simp [isRetryableError, Comparable, hname, hnone]

theorem isRetryableError_eq_some {error : Value} {retryableErrors : List String} {answer : Bool}
    (h : isRetryableError error retryableErrors = some answer) :
    answer = true ↔ ∃ errorType ∈ retryableErrors,
      includes (error.get "name") errorType = some true ∨
        includes (error.get "message") errorType = some true := by
  induction retryableErrors with
  | nil =>
    have hfalse : answer = false := by simpa [isRetryableError] using h.symm
    simp [hfalse]
  | cons errorType rest ih =>
    simp only [isRetryableError] at h
    split at h
    · cases h
    · -- the name first, then the message, then the rest of the list
      rcases hn : includes (error.get "name") errorType with _ | _ | _
      · simp [hn] at h
      · rcases hm : includes (error.get "message") errorType with _ | _ | _
        · simp [hn, hm] at h
        · have hrest := ih (by simpa [hn, hm] using h)
          simp [hrest, hn, hm]
        · have htrue : answer = true := by simpa [hn, hm] using h.symm
          simp [htrue, hm]
      · have htrue : answer = true := by simpa [hn] using h.symm
        simp [htrue, hn]

section Reading

variable {options : RetryOptions} {error : Value}

theorem retries_ne_none_iff : options.retries error ≠ none ↔
    ∀ retryableErrors, options.retryableErrors = some retryableErrors →
      Comparable error retryableErrors := by
  unfold RetryOptions.retries
  cases options.retryableErrors with
  | none => simp
  | some retryableErrors => simp [isRetryableError_ne_none_iff]

theorem retries_eq_some {answer : Bool} (h : options.retries error = some answer) :
    answer = true ↔ Retryable options error := by
  unfold RetryOptions.retries at h
  unfold Retryable
  cases hlist : options.retryableErrors with
  | none =>
    rw [hlist] at h
    have htrue : answer = true := by simpa using h.symm
    simp [htrue]
  | some retryableErrors =>
    rw [hlist] at h
    simp [isRetryableError_eq_some h]

end Reading

theorem int_fin_ne_none_iff {random : RandomInt} {call : Nat} {n : Int} :
    random.int call (.fin n) ≠ none ↔ 0 < n ∧ n < 281474976710656 := by
  have hmax : (n : ℚ) ≤ (maxRandomRange : ℚ) ↔ n < 281474976710656 := by
    have hcast : ((maxRandomRange : Nat) : ℚ) = ((281474976710655 : Int) : ℚ) := by
      norm_num [maxRandomRange]
    rw [hcast, Int.cast_le]
    omega
  simp [RandomInt.int, hmax]

theorem maximum_one_fin (q : ℚ) :
    Number.maximum 1 (Number.fin q).floor = .fin ((max 1 ⌊q⌋ : Int) : ℚ) := by
  have hfloor : (Number.fin q).floor = .fin ((⌊q⌋ : Int) : ℚ) := rfl
  have hone : (1 : Number) = .fin ((1 : Int) : ℚ) := by decide +kernel
  rw [hfloor, hone]
  by_cases h : 1 < ⌊q⌋
  · have hmax : max 1 ⌊q⌋ = ⌊q⌋ := max_eq_right h.le
    rw [hmax]
    simp only [Number.maximum, Number.lt, Int.cast_lt, h, decide_true, reduceCtorEq, or_self,
      if_true, if_false]
  · have hmax : max 1 ⌊q⌋ = 1 := max_eq_left (by omega)
    rw [hmax]
    simp only [Number.maximum, Number.lt, Int.cast_lt, h, decide_false, reduceCtorEq, or_self,
      if_false, Bool.false_eq_true]

/-- The range of `randomInt` is an integer from one on, however the tenth is computed. -/
theorem int_maximum_ne_none_iff (random : RandomInt) (call : Nat) (tenth : Number) :
    random.int call (Number.maximum 1 tenth.floor) ≠ none ↔
      (Number.maximum 1 tenth.floor).lt (.fin 281474976710656) = true := by
  cases tenth with
  | nan =>
    -- `randomInt` turns NaN down, and infinity
    have hnan : Number.maximum 1 Number.nan.floor = .nan := by decide +kernel
    simp [hnan, RandomInt.int, Number.lt]
  | inf negative =>
    cases negative with
    | false =>
      have hinf : Number.maximum 1 (Number.inf false).floor = .inf false := by decide +kernel
      simp [hinf, RandomInt.int, Number.lt]
    | true =>
      -- below every delay, the ceiling is one
      have hone : Number.maximum 1 (Number.inf true).floor = .fin ((1 : Int) : ℚ) := by
        decide +kernel
      rw [hone, int_fin_ne_none_iff]
      simp [Number.lt]
  | fin q =>
    have hcast : ((max 1 ⌊q⌋ : Int) : ℚ) < 281474976710656 ↔ max 1 ⌊q⌋ < 281474976710656 := by
      rw [← Int.cast_lt (R := ℚ)]
      norm_num
    rw [maximum_one_fin, int_fin_ne_none_iff, Number.lt, decide_eq_true_eq, hcast]
    omega

/-- **The backoff** fails exactly where the delay is out of reach. -/
theorem calculateBackoffDelay_ne_none_iff (A : Arithmetic) (options : RetryOptions)
    (random : RandomInt) (attempt : Nat) :
    calculateBackoffDelay A random attempt options.baseDelay options.maxDelay
      options.backoffMultiplier ≠ none ↔ options.InRange A attempt := by
  unfold RetryOptions.InRange jitterCeiling
  rw [← int_maximum_ne_none_iff random attempt]
  simp [calculateBackoffDelay, jitterCeiling]

/-! ## The loop -/

section Loop

variable {A : Arithmetic} {α : Type*} {operation : Nat → Outcome α} {options : RetryOptions}
  {random : RandomInt} {lastError error : Value} {left attempt k : Nat} {sleeps : List Number}

/-- Of the last invocation only the comparison matters. -/
theorem smooth_self_iff : Smooth operation options A k k ↔
    ∀ error, operation k = .thrown error → options.retries error ≠ none := by
  constructor
  · intro h error hthrown
    exact retries_ne_none_iff.mpr (h.comparable k (Nat.le_refl _) (Nat.le_refl _) error hthrown)
  · intro h
    refine ⟨fun j hj hjk error hthrown => ?_, fun j hj hlt => by omega⟩
    obtain rfl : j = k := by omega
    exact retries_ne_none_iff.mp (h error hthrown)

/-- Invocation `attempt` is passed: its error can be compared, its message can be read,
and the delay after it is in reach. -/
theorem smooth_succ_iff (hlt : attempt < k) (hthrown : operation attempt = .thrown error) :
    Smooth operation options A attempt k ↔
      (options.retries error ≠ none ∧ error.isNullish = false ∧ options.InRange A attempt) ∧
        Smooth operation options A (attempt + 1) k := by
  constructor
  · intro h
    have hread := h.comparable attempt (Nat.le_refl _) hlt.le error hthrown
    have hpasses := h.between attempt (Nat.le_refl _) hlt error hthrown
    refine ⟨⟨retries_ne_none_iff.mpr hread, hpasses⟩, ?_⟩
    exact ⟨fun j hj => h.comparable j (by omega), fun j hj => h.between j (by omega)⟩
  · rintro ⟨⟨hread, hpasses⟩, h⟩
    refine ⟨fun j hj hjk e he => ?_, fun j hj hjk e he => ?_⟩ <;> by_cases hfirst : j = attempt
    · subst hfirst
      obtain rfl := Outcome.thrown.inj (hthrown.symm.trans he)
      exact retries_ne_none_iff.mp hread
    · exact h.comparable j (by omega) hjk e he
    · subst hfirst
      obtain rfl := Outcome.thrown.inj (hthrown.symm.trans he)
      exact hpasses
    · exact h.between j (by omega) hjk e he

theorem stops_thrown_iff (hthrown : operation attempt = .thrown error) :
    Stops operation options attempt ↔
      ¬ Retryable options error ∨ attempt = options.maxAttempts := by
  simp [Stops, hthrown]

variable (A random lastError left sleeps) in
/-- The last invocation settles the call, unless its error cannot be compared. -/
theorem executeFrom_last (hstops : Stops operation options k) :
    (Smooth operation options A k k ∧
      executeFrom A operation options random lastError (left + 1) k sleeps =
        ⟨k, sleeps, (operation k).settled⟩) ∨
    (¬ Smooth operation options A k k ∧
      (executeFrom A operation options random lastError (left + 1) k sleeps).settled =
        .internalError) := by
  rcases hop : operation k with a | error
  · refine .inl ⟨smooth_self_iff.mpr fun e he => ?_, by simp [executeFrom, hop, Outcome.settled]⟩
    simp [hop] at he
  · cases hretries : options.retries error with
    | none =>
      refine .inr ⟨fun h => ?_, by simp [executeFrom, hop, hretries]⟩
      exact smooth_self_iff.mp h error hop hretries
    | some retried =>
      have hsmooth : Smooth operation options A k k := by
        refine smooth_self_iff.mpr fun e he => ?_
        obtain rfl := Outcome.thrown.inj (hop.symm.trans he)
        simp [hretries]
      refine .inl ⟨hsmooth, ?_⟩
      cases retried with
      | false => simp [executeFrom, hop, hretries, Outcome.settled]
      | true =>
        -- an error that is retried ends the last attempt only
        have hfinal : k = options.maxAttempts := by
          rcases (stops_thrown_iff hop).mp hstops with hno | hfinal
          · exact absurd ((retries_eq_some hretries).mp rfl) hno
          · exact hfinal
        simp [executeFrom, hop, hretries, if_pos hfinal, Outcome.settled]

variable (A random lastError left sleeps) in
/-- An error that is retried is followed by the delay and the next attempt. -/
theorem executeFrom_goes (hop : operation attempt = .thrown error)
    (hretries : options.retries error = some true) (hlast : attempt ≠ options.maxAttempts)
    {d : Number} (hdelay : options.delay A random attempt = some d)
    (hnullish : error.isNullish = false) :
    executeFrom A operation options random lastError (left + 1) attempt sleeps =
      executeFrom A operation options random error left (attempt + 1) (d :: sleeps) := by
  rw [RetryOptions.delay] at hdelay
  simp [executeFrom, hop, hretries, hlast, hdelay, hnullish]

variable (A random lastError left sleeps) in
/-- Any other is followed by a sleep and the next one, unless the code makes an error. -/
theorem executeFrom_retried (hop : operation attempt = .thrown error)
    (hgoes : ¬ Stops operation options attempt) :
    ((options.retries error ≠ none ∧ error.isNullish = false ∧ options.InRange A attempt) ∧
      ∃ delay, executeFrom A operation options random lastError (left + 1) attempt sleeps =
        executeFrom A operation options random error left (attempt + 1) (delay :: sleeps)) ∨
    (¬ (options.retries error ≠ none ∧ error.isNullish = false ∧ options.InRange A attempt) ∧
      (executeFrom A operation options random lastError (left + 1) attempt sleeps).settled =
        .internalError) := by
  rw [stops_thrown_iff hop, not_or, not_not] at hgoes
  obtain ⟨hretryable, hfinal⟩ := hgoes
  cases hretries : options.retries error with
  | none =>
    -- the comparison throws
    exact .inr ⟨fun h => h.1 rfl, by simp [executeFrom, hop, hretries]⟩
  | some retried =>
    obtain rfl : retried = true := (retries_eq_some hretries).mpr hretryable
    rw [← calculateBackoffDelay_ne_none_iff A options random attempt]
    cases hbackoff : calculateBackoffDelay A random attempt options.baseDelay options.maxDelay
      options.backoffMultiplier with
    | none =>
      -- `randomInt` throws
      exact .inr ⟨fun h => h.2.2 rfl, by simp [executeFrom, hop, hretries, hfinal, hbackoff]⟩
    | some delay =>
      cases hnullish : error.isNullish with
      | true =>
        -- the warning throws
        refine .inr ⟨fun h => absurd h.2.1 (by simp), ?_⟩
        simp [executeFrom, hop, hretries, hfinal, hbackoff, hnullish]
      | false =>
        refine .inl ⟨by simp, delay, ?_⟩
        exact executeFrom_goes A random lastError left sleeps hop hretries hfinal hbackoff hnullish

variable (A random lastError sleeps) in
/-- **The loop** ends as invocation `k` does, unless the code makes an error before. -/
theorem executeFrom_spec (hle : attempt ≤ k) (hleft : left + attempt = options.maxAttempts + 1)
    (hbefore : ∀ j, attempt ≤ j → j < k → ¬ Stops operation options j)
    (hstops : Stops operation options k) (hmax : k ≤ options.maxAttempts) :
    (Smooth operation options A attempt k ∧
      ∃ slept, slept.length = k - attempt ∧
        executeFrom A operation options random lastError left attempt sleeps =
          ⟨k, slept ++ sleeps, (operation k).settled⟩) ∨
    (¬ Smooth operation options A attempt k ∧
      (executeFrom A operation options random lastError left attempt sleeps).settled =
        .internalError) := by
  induction left generalizing lastError attempt sleeps with
  | zero => omega
  | succ left ih =>
    by_cases hlast : attempt = k
    · subst hlast
      rcases executeFrom_last A random lastError left sleeps hstops with
        ⟨hsmooth, hrecord⟩ | hinternal
      · exact .inl ⟨hsmooth, [], by simp, hrecord⟩
      · exact .inr hinternal
    · -- not the last one, so it throws what is retried
      have hlt : attempt < k := by omega
      have hgoes := hbefore attempt (Nat.le_refl _) hlt
      obtain ⟨error, hop⟩ : ∃ error, operation attempt = .thrown error := by
        rcases hop : operation attempt with a | error
        · exact absurd (.inl ⟨a, hop⟩) hgoes
        · exact ⟨error, rfl⟩
      rw [smooth_succ_iff hlt hop]
      rcases executeFrom_retried A random lastError left sleeps hop hgoes with
        ⟨hpasses, delay, hstep⟩ | ⟨hnot, hinternal⟩
      · have hlater : ∀ j, attempt + 1 ≤ j → j < k → ¬ Stops operation options j :=
          fun j hj hjk => hbefore j (by omega) hjk
        rw [hstep]
        rcases ih error (delay :: sleeps) hlt (by omega) hlater with
          ⟨hsmooth, slept, hlength, hrecord⟩ | ⟨hnot, hinternal⟩
        · refine .inl ⟨⟨hpasses, hsmooth⟩, slept ++ [delay], ?_, ?_⟩
          · simp only [List.length_append, List.length_singleton]
            omega
          · rw [hrecord, List.append_assoc, List.singleton_append]
        · exact .inr ⟨fun h => hnot h.2, hinternal⟩
      · exact .inr ⟨fun h => hnot h.1, hinternal⟩

end Loop

/-! ## Transparency -/

/-- One of the invocations is the last. -/
theorem exists_isLeast_stops {α : Type*} (operation : Nat → Outcome α) {options : RetryOptions}
    (hmax : 1 ≤ options.maxAttempts) :
    ∃ k, IsLeast {j | 1 ≤ j ∧ Stops operation options j} k ∧ k ≤ options.maxAttempts := by
  classical
  have hstops : ∃ j, 1 ≤ j ∧ Stops operation options j :=
    ⟨options.maxAttempts, hmax, .inr (.inr rfl)⟩
  refine ⟨Nat.find hstops, ⟨Nat.find_spec hstops, fun j hj => Nat.find_min' hstops hj⟩, ?_⟩
  exact Nat.find_min' hstops ⟨hmax, .inr (.inr rfl)⟩

theorem settled_ne_internalError {α : Type*} (outcome : Outcome α) :
    outcome.settled ≠ .internalError := by
  cases outcome <;> simp [Outcome.settled]

/-- **The retries show nothing of themselves** exactly where the code makes no error
of its own: up to the `k`-th invocation every thrown value can be compared with the
list, and every one that is retried is not `null` or `undefined` and is followed by
a delay in reach. -/
theorem transparent_iff (A : Arithmetic) {α : Type*} (operation : Nat → Outcome α)
    (options : RetryOptions) (random : RandomInt) (hmax : 1 ≤ options.maxAttempts) :
    ∃ k, IsLeast {j | 1 ≤ j ∧ Stops operation options j} k ∧
      (Transparent operation (executeWithRetry A operation options random) k ↔
        Smooth operation options A 1 k) := by
  obtain ⟨k, hleast, hle⟩ := exists_isLeast_stops operation hmax
  refine ⟨k, hleast, ?_⟩
  have hbefore : ∀ j, 1 ≤ j → j < k → ¬ Stops operation options j := by
    intro j hj hlt hstops
    have hkj : k ≤ j := hleast.2 ⟨hj, hstops⟩
    omega
  have hleft : options.maxAttempts + 1 = options.maxAttempts + 1 := rfl
  rcases executeFrom_spec A random noErrorCaptured [] hleast.1.1 hleft hbefore hleast.1.2 hle with
    ⟨hsmooth, slept, hlength, hrecord⟩ | ⟨hnot, hinternal⟩
  · refine ⟨fun _ => hsmooth, fun _ => ?_⟩
    rw [executeWithRetry, hrecord, List.append_nil]
    exact ⟨rfl, rfl, hlength⟩
  · -- an error of the code's own is the outcome of no invocation
    refine ⟨fun h => absurd ?_ (settled_ne_internalError (operation k)), fun h => absurd h hnot⟩
    rw [← h.settled]
    exact hinternal

/-! ### Examples -/

/-- Any generator will do here. -/
def zeroes : RandomInt := ⟨fun _ _ => 0, fun _ _ h => h⟩

/-- `getDefaultRetryOptions`. -/
def getDefaultRetryOptions : RetryOptions :=
  ⟨3, 1000, 30000, 2, some ["ECONNRESET", "ETIMEDOUT", "ENOTFOUND", "EAI_AGAIN"]⟩

/-- A lost connection, then an answer. -/
def resetThenAnswer : Nat → Outcome String
  | 1 => .thrown (.obj [("name", .str "Error"), ("message", .str "read ECONNRESET")])
  | _ => .value "done"

/-- A text is thrown, not an `Error`. -/
def throwsText : Nat → Outcome String := fun _ => .thrown (.str "quota exceeded")

/-- Nothing is thrown at first, then there is an answer. -/
def throwsNull : Nat → Outcome String
  | 1 => .thrown .null
  | _ => .value "done"

/-- A power that overflows makes NaN of a base of zero, and no delay. -/
example : ¬ RetryOptions.InRange .doubles ⟨1100, 0, 30000, 2, none⟩ 1025 := by
  unfold RetryOptions.InRange
  decide +kernel

/-- One lost connection is passed over. -/
theorem transparent_reset : 1 ≤ getDefaultRetryOptions.maxAttempts ∧
    ∃ k, IsLeast {j | 1 ≤ j ∧ Stops resetThenAnswer getDefaultRetryOptions j} k ∧
      (Transparent resetThenAnswer
        (executeWithRetry .doubles resetThenAnswer getDefaultRetryOptions zeroes) k ↔
          Smooth resetThenAnswer getDefaultRetryOptions .doubles 1 k) :=
  ⟨by decide, transparent_iff .doubles resetThenAnswer getDefaultRetryOptions zeroes (by decide)⟩

/-- A text that is thrown is not what the caller gets: the comparison with the list
throws an error of its own. Neither does `null` pass, where a second attempt would
have succeeded. -/
theorem text_not_passed_on :
    ¬ (∀ (operation : Nat → Outcome String) (options : RetryOptions) (random : RandomInt),
      1 ≤ options.maxAttempts → ∃ k, IsLeast {j | 1 ≤ j ∧ Stops operation options j} k ∧
        Transparent operation (executeWithRetry .doubles operation options random) k) ∧
    (executeWithRetry .doubles throwsText getDefaultRetryOptions zeroes).settled = .internalError ∧
    (executeWithRetry .doubles throwsNull ⟨3, 1000, 30000, 2, none⟩ zeroes).settled =
      .internalError := by
  have htext : (executeWithRetry .doubles throwsText getDefaultRetryOptions zeroes).settled =
      .internalError := by
    simp [executeWithRetry, executeFrom, throwsText, getDefaultRetryOptions,
      RetryOptions.retries, isRetryableError, Value.isNullish, Value.get, includes]
  have hnull : (executeWithRetry .doubles throwsNull ⟨3, 1000, 30000, 2, none⟩ zeroes).settled =
      .internalError := by
    -- whatever the delay is, the warning reads the message of `null`
    rcases hdelay : calculateBackoffDelay .doubles zeroes 1 1000 30000 2 with _ | delay <;>
      simp [executeWithRetry, executeFrom, throwsNull, RetryOptions.retries, Value.isNullish,
        hdelay]
  refine ⟨fun h => ?_, htext, hnull⟩
  obtain ⟨k, -, htransparent⟩ := h throwsText getDefaultRetryOptions zeroes (by decide)
  have hsettled := htransparent.settled
  rw [htext] at hsettled
  exact settled_ne_internalError _ hsettled.symm

end SchedulingService.Common
