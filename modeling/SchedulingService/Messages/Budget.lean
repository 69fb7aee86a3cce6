import Mathlib.Data.Nat.Count
import SchedulingService.Lib.Retry
import SchedulingService.Messages.Handover
import SchedulingService.Messages.Sending

/-!
# The retry budget

One message over successive claims: each claim that finds it PENDING is a send,
and `sendMessage` stores how it came out. The sends may come out in any way. The
claimed entity carries the stored `retryCount`.

Main results:

* `round_spec` — one claim and its send;
* `stage_of_rounds` — after any number of them, in terms of `Retry.attempts`;
* `keepsBudget` — what becomes of the message.
-/

namespace SchedulingService.Messages

open Js

/-- One claim of message `i` and what `sendMessage` makes of it, with its saves
done and the call ending as `outcome` has it. The rest of the table may have
changed in the meantime. -/
inductive Round (P : Platform) (i : Id) (outcome : Option Value) (t t' : Table) : Prop
  /-- It is not claimed. -/
  | idle (hclaim : claimRow t i = none) (hget : t'.get i = t.get i)
  | sent (t₁ t₂ : Table) (r : Row) (hclaim : claimRow t i = some (t₁, r))
      (hstore : storeAll t₁
        (sendMessage (P.materialize r)
          { call := outcome, saveSent := .done, saveError := .done }).saves = some t₂)
      (hget : t'.get i = t₂.get i)

/-- The tables before each of the rounds. -/
def Rounds (P : Platform) (i : Id) (outcomes : Nat → Option Value) (T : Nat → Table) : Prop :=
  ∀ k, Round P i (outcomes k) (T k) (T (k + 1))

section Counts

variable (i : Id) (T : Nat → Table)

/-- Round `k` sends the message. -/
def Sends (k : Nat) : Prop := (claimRow (T k) i).isSome = true

/-- Round `k` sends it and puts it back to PENDING. -/
def PutsBackAt (k : Nat) : Prop :=
  Sends i T k ∧ ((T (k + 1)).get i).map Row.status = some .pending

instance (k : Nat) : Decidable (Sends i T k) :=
  inferInstanceAs (Decidable (_ = _))

instance (k : Nat) : Decidable (PutsBackAt i T k) :=
  inferInstanceAs (Decidable (_ ∧ _))

end Counts

/-- Send `k` fails and may be repeated. -/
def transientAt (outcomes : Nat → Option Value) (k : Nat) : Bool :=
  (outcomes k).any isTransientError

/-- Send `j` is the first success, with no permanent error before it and within
the budget. -/
structure SucceedsAt (outcomes : Nat → Option Value) (j : Nat) : Prop where
  resolved : outcomes j = none
  within : j ≤ RETRY_LIMIT
  before : ∀ l < j, transientAt outcomes l = true

/-- Send `j` is the first permanent error, or the transient failure that uses up
the budget. -/
structure GivesUpAt (outcomes : Nat → Option Value) (j : Nat) : Prop where
  failed : outcomes j ≠ none
  within : j ≤ RETRY_LIMIT
  before : ∀ l < j, transientAt outcomes l = true
  last : transientAt outcomes j = false ∨ j = RETRY_LIMIT

/-- What becomes of message `i`, whose sends come out as `outcomes` has it. -/
structure KeepsBudget (i : Id) (outcomes : Nat → Option Value) (T : Nat → Table) : Prop where
  /-- The stored count is that of the sends that were put back. -/
  retryCount : ∀ k, ∃ r, (T k).get i = some r ∧
    r.retryCount = Nat.count (PutsBackAt i T) k ∧ r.retryCount ≤ RETRY_LIMIT
  sends : ∀ k, Nat.count (Sends i T) k ≤ RETRY_LIMIT + 1
  sent : ∀ k r, (T k).get i = some r → (r.status = .sent ↔ ∃ j < k, SucceedsAt outcomes j)
  failed : ∀ k r, (T k).get i = some r → (r.status = .failed ↔ ∃ j < k, GivesUpAt outcomes j)
  /-- PENDING until then, and never again. -/
  pending : ∀ k r, (T k).get i = some r → (r.status = .pending ↔
    ∀ j < k, ¬ SucceedsAt outcomes j ∧ ¬ GivesUpAt outcomes j)
  settles : ∃ j ≤ RETRY_LIMIT, SucceedsAt outcomes j ∨ GivesUpAt outcomes j

/-! ## One round -/

/-- The status a send leaves, of a message that was sent again `n` times. -/
def statusAfterSend (outcome : Option Value) (n : Nat) : ScheduledMessageStatus :=
  match outcome with
  | none => .sent
  | some error => if isTransientError error && decide (n < RETRY_LIMIT) then .pending else .failed

/-- A save writes the status and the count of its entity. -/
theorem save_counts {t t' : Table} {m : ScheduledMessage} {r : Row}
    {status : ScheduledMessageStatus} {n : Nat} (hid : m.id = .val r.id)
    (hget : t.get r.id = some r) (hstatus : m.status = .val status)
    (hcount : m.retryCount = .val n) (hsave : save t m = some t') :
    ∃ r', t'.get r.id = some r' ∧ r'.status = status ∧ r'.retryCount = n := by
  simp only [save, hid, Slot.toOption_val, hget, ScheduledMessage.overwrite, hstatus, hcount,
    writeColumn, Option.bind_eq_bind, Option.bind_some, Option.bind_eq_some_iff,
    Option.some.injEq] at hsave
  -- of the row that is put, the status and the count are known
  obtain ⟨row, ⟨userId, -, conversationId, -, content, -, scheduledAt, -, rfl⟩, rfl⟩ := hsave
  exact ⟨_, Keyed.get_put_self (by rw [hget]), rfl, rfl⟩

section Round

variable {P : Platform} {i : Id} {outcome : Option Value} {t t' : Table}
  (hcarries : ∀ r, (P.materialize r).retryCount = .val r.retryCount)

/-- The one version a send saves when its saves are done. -/
theorem sendMessage_saves_done (outcome : Option Value) {m : ScheduledMessage} {n : Nat}
    (hcount : m.retryCount = .val n) :
    ∃ version,
      (sendMessage m { call := outcome, saveSent := .done, saveError := .done }).saves =
        [{ version, outcome := .done }] ∧
      version.id = m.id ∧ version.status = .val (statusAfterSend outcome n) ∧
      version.retryCount =
        .val (if statusAfterSend outcome n = .pending then n + 1 else n) := by
  cases outcome with
  | none => exact ⟨onSent m, rfl, rfl, rfl, hcount⟩
  | some error =>
    refine ⟨onSendError error m, rfl, onSendError_id error m, ?_, ?_⟩
    · rw [onSendError_status, canRetry, hcount]
      rfl
    · have hretry : canRetry error m = (isTransientError error && decide (n < RETRY_LIMIT)) := by
        rw [canRetry, hcount]
        rfl
      cases hagain : isTransientError error && decide (n < RETRY_LIMIT) <;>
        simp [onSendError, hretry, statusAfterSend, hagain, hcount, incrRetry]

include hcarries in
/-- **One round** of a PENDING message. -/
theorem round_spec (h : Round P i outcome t t') {r : Row} (hget : t.get i = some r)
    (hpending : r.status = .pending) :
    ∃ r', t'.get i = some r' ∧ r'.status = statusAfterSend outcome r.retryCount ∧
      r'.retryCount =
        if statusAfterSend outcome r.retryCount = .pending then r.retryCount + 1
        else r.retryCount := by
  cases h with
  -- a PENDING row is claimed
  | idle hclaim => exact absurd hpending (claimRow_eq_none.mp hclaim r hget)
  | sent t₁ t₂ r₁ hclaim hstore hget' =>
    obtain ⟨r₀, rfl, hclaimed⟩ := claimRow_spec hclaim
    obtain rfl := Option.some.inj (hclaimed.before.symm.trans hget)
    have hcount : (P.materialize r₁).retryCount = .val r₀.retryCount := by
      rw [hcarries, hclaimed.row_eq]
    have hgot : t₁.get r₁.id = some r₁ := by
      rw [hclaimed.id_eq]
      exact hclaimed.get_self
    -- what is stored is the one version that is saved
    obtain ⟨version, hsaves, hid, hstatus, hretry⟩ := sendMessage_saves_done outcome hcount
    rw [hsaves] at hstore
    simp only [storeAll, Option.bind_eq_some_iff, Option.some.injEq] at hstore
    obtain ⟨t₃, hsave, rfl⟩ := hstore
    obtain ⟨r', hget₃, hst, hn⟩ := save_counts (hid.trans (P.materialize_id r₁)) hgot hstatus
      hretry hsave
    rw [hclaimed.id_eq] at hget₃
    exact ⟨r', hget'.trans hget₃, hst, hn⟩

/-- A message that is not PENDING is left alone. -/
theorem round_of_not_pending (h : Round P i outcome t t')
    (hnot : ∀ r, t.get i = some r → r.status ≠ .pending) : t'.get i = t.get i := by
  cases h with
  | idle hclaim hget => exact hget
  | sent t₁ t₂ r hclaim =>
    rw [claimRow_eq_none.mpr hnot] at hclaim
    cases hclaim

end Round

/-! ## The rounds -/

section Rounds

variable {P : Platform} {i : Id} {outcomes : Nat → Option Value} {T : Nat → Table}
  (hcarries : ∀ r, (P.materialize r).retryCount = .val r.retryCount)

/-- How many sends there are. -/
def sendCount (outcomes : Nat → Option Value) : Nat :=
  Retry.attempts (transientAt outcomes) RETRY_LIMIT

/-- Where the last send leaves the message. -/
def lastStatus (outcomes : Nat → Option Value) : ScheduledMessageStatus :=
  match outcomes (sendCount outcomes - 1) with
  | none => .sent
  | some _ => .failed

/-- What is stored before round `k`. -/
structure BudgetStage (i : Id) (outcomes : Nat → Option Value) (t : Table) (k : Nat) (r : Row) :
    Prop where
  row : t.get i = some r
  retryCount : r.retryCount = min k (sendCount outcomes - 1)
  status : r.status = if k < sendCount outcomes then .pending else lastStatus outcomes

theorem sendCount_spec (outcomes : Nat → Option Value) :
    Retry.Exhausts (transientAt outcomes) RETRY_LIMIT (sendCount outcomes) :=
  Retry.attempts_spec _ _

theorem lastStatus_ne_pending (outcomes : Nat → Option Value) :
    lastStatus outcomes ≠ .pending := by
  unfold lastStatus
  cases outcomes (sendCount outcomes - 1) <;> simp

/-- A send that is not the last puts the message back. -/
theorem statusAfterSend_of_more {k : Nat} (hk : k + 1 < sendCount outcomes) :
    statusAfterSend (outcomes k) k = .pending := by
  have hspec := sendCount_spec outcomes
  have htransient := hspec.asked k hk
  have hwithin : k < RETRY_LIMIT := by
    have := hspec.le
    omega
  rw [transientAt, Option.any_eq_true] at htransient
  obtain ⟨error, herror, htransient⟩ := htransient
  simp [statusAfterSend, herror, htransient, hwithin]

/-- The last send settles it. -/
theorem statusAfterSend_of_last {k : Nat} (hk : k + 1 = sendCount outcomes) :
    statusAfterSend (outcomes k) k = lastStatus outcomes := by
  have hlast : sendCount outcomes - 1 = k := by omega
  rw [lastStatus, hlast]
  cases houtcome : outcomes k with
  | none => rfl
  | some error =>
    -- it is permanent, or the budget is used up
    have hno : (isTransientError error && decide (k < RETRY_LIMIT)) = false := by
      rcases (sendCount_spec outcomes).stop with hall | hstop
      · have : ¬ k < RETRY_LIMIT := by omega
        simp [this]
      · rw [hlast, transientAt, houtcome] at hstop
        simp only [Option.any_some] at hstop
        rw [hstop, Bool.false_and]
    simp [statusAfterSend, hno]

include hcarries in
/-- What one round does to the stage. -/
theorem BudgetStage.step {t t' : Table} {k : Nat} {r : Row} (h : BudgetStage i outcomes t k r)
    (hround : Round P i (outcomes k) t t') : ∃ r', BudgetStage i outcomes t' (k + 1) r' := by
  by_cases hk : k < sendCount outcomes
  · -- it is sent, and this is the last time or not
    have hpending : r.status = .pending := by rw [h.status, if_pos hk]
    have hcount : r.retryCount = k := by
      rw [h.retryCount]
      omega
    obtain ⟨r', hget, hstatus, hretry⟩ := round_spec hcarries hround h.row hpending
    rw [hcount] at hstatus hretry
    refine ⟨r', hget, ?_, ?_⟩
    · by_cases hmore : k + 1 < sendCount outcomes
      · rw [hretry, if_pos (statusAfterSend_of_more hmore)]
        omega
      · have hlast : k + 1 = sendCount outcomes := by omega
        rw [hretry, if_neg (by
          rw [statusAfterSend_of_last hlast]
          exact lastStatus_ne_pending outcomes)]
        omega
    · by_cases hmore : k + 1 < sendCount outcomes
      · rw [hstatus, if_pos hmore, statusAfterSend_of_more hmore]
      · have hlast : k + 1 = sendCount outcomes := by omega
        rw [hstatus, if_neg hmore, statusAfterSend_of_last hlast]
  · -- it is settled, and no round claims it
    have hstatus : r.status = lastStatus outcomes := by rw [h.status, if_neg hk]
    have hsame : t'.get i = t.get i := by
      refine round_of_not_pending hround fun r₁ hr₁ => ?_
      obtain rfl := Option.some.inj (h.row.symm.trans hr₁)
      rw [hstatus]
      exact lastStatus_ne_pending outcomes
    refine ⟨r, hsame.trans h.row, ?_, ?_⟩
    · rw [h.retryCount]
      omega
    · rw [hstatus, if_neg (by omega)]

include hcarries in
/-- **Any number of rounds** from a message that was never sent. -/
theorem stage_of_rounds (h : Rounds P i outcomes T) {r₀ : Row} (hget : (T 0).get i = some r₀)
    (hpending : r₀.status = .pending) (hzero : r₀.retryCount = 0) (k : Nat) :
    ∃ r, BudgetStage i outcomes (T k) k r := by
  induction k with
  | zero =>
    refine ⟨r₀, hget, ?_, ?_⟩
    · rw [hzero, Nat.zero_min]
    · rw [hpending, if_pos (sendCount_spec outcomes).pos]
  | succ k ih =>
    obtain ⟨r, hr⟩ := ih
    exact hr.step hcarries (h k)

/-! ### What the stages say of the sends -/

/-- A send before which every one asked for another, and that asks for no more,
is the last. -/
theorem eq_sendCount {j : Nat} (hwithin : j ≤ RETRY_LIMIT)
    (hbefore : ∀ l < j, transientAt outcomes l = true)
    (hlast : transientAt outcomes j = false ∨ j = RETRY_LIMIT) : j + 1 = sendCount outcomes := by
  have hspec := sendCount_spec outcomes
  have hle := hspec.le
  have hpos := hspec.pos
  rcases Nat.lt_trichotomy (j + 1) (sendCount outcomes) with hlt | heq | hgt
  · -- a send before the last asks for another
    rcases hlast with hno | hall
    · rw [hspec.asked j hlt] at hno
      cases hno
    · omega
  · exact heq
  · -- and the last one asks for none
    have hasked := hbefore (sendCount outcomes - 1) (by omega)
    rcases hspec.stop with hall | hstop
    · omega
    · rw [hstop] at hasked
      cases hasked

theorem succeedsAt_iff {j : Nat} : SucceedsAt outcomes j ↔
    j + 1 = sendCount outcomes ∧ outcomes j = none := by
  have hspec := sendCount_spec outcomes
  have hle := hspec.le
  constructor
  · intro h
    have hnot : transientAt outcomes j = false := by rw [transientAt, h.resolved, Option.any_none]
    exact ⟨eq_sendCount h.within h.before (.inl hnot), h.resolved⟩
  · rintro ⟨hlast, hresolved⟩
    exact ⟨hresolved, by omega, fun l hl => hspec.asked l (by omega)⟩

theorem givesUpAt_iff {j : Nat} : GivesUpAt outcomes j ↔
    j + 1 = sendCount outcomes ∧ outcomes j ≠ none := by
  have hspec := sendCount_spec outcomes
  have hle := hspec.le
  constructor
  · intro h
    exact ⟨eq_sendCount h.within h.before h.last, h.failed⟩
  · rintro ⟨hlast, hfailed⟩
    refine ⟨hfailed, by omega, fun l hl => hspec.asked l (by omega), ?_⟩
    rcases hspec.stop with hall | hstop
    · exact .inr (by omega)
    · refine .inl ?_
      rwa [← hlast, Nat.add_sub_cancel] at hstop

/-- A message is claimed exactly when it is PENDING. -/
theorem BudgetStage.sends_iff {k : Nat} {r : Row} (h : BudgetStage i outcomes (T k) k r) :
    Sends i T k ↔ k < sendCount outcomes := by
  rw [Sends, ← Option.ne_none_iff_isSome, ne_eq, claimRow_eq_none]
  constructor
  · intro hnot
    by_contra hk
    refine hnot fun r₁ hr₁ => ?_
    obtain rfl := Option.some.inj (h.row.symm.trans hr₁)
    rw [h.status, if_neg hk]
    exact lastStatus_ne_pending outcomes
  · intro hk hnot
    exact hnot r h.row (by rw [h.status, if_pos hk])

theorem putsBackAt_iff {k : Nat} {r r' : Row} (h : BudgetStage i outcomes (T k) k r)
    (h' : BudgetStage i outcomes (T (k + 1)) (k + 1) r') :
    PutsBackAt i T k ↔ k + 1 < sendCount outcomes := by
  rw [PutsBackAt, h.sends_iff, h'.row, Option.map_some, Option.some.injEq, h'.status]
  constructor
  · rintro ⟨-, hpending⟩
    by_contra hk
    rw [if_neg hk] at hpending
    exact lastStatus_ne_pending outcomes hpending
  · intro hk
    exact ⟨by omega, if_pos hk⟩

/-- Counting an initial segment. -/
theorem count_eq_min {p : Nat → Prop} [DecidablePred p] {n : Nat} (hp : ∀ k, p k ↔ k < n)
    (k : Nat) : Nat.count p k = min k n := by
  induction k with
  | zero => rw [Nat.count_zero, Nat.zero_min]
  | succ k ih =>
    rw [Nat.count_succ, ih]
    by_cases hk : k < n
    · rw [if_pos ((hp k).mpr hk)]
      omega
    · rw [if_neg fun h => hk ((hp k).mp h)]
      omega

section Row

variable {t : Table} {k : Nat} {r : Row}

theorem BudgetStage.sent_iff (h : BudgetStage i outcomes t k r) :
    r.status = .sent ↔ ∃ j < k, SucceedsAt outcomes j := by
  have hpos := (sendCount_spec outcomes).pos
  rw [h.status]
  constructor
  · intro hsent
    have hk : ¬ k < sendCount outcomes := fun hk => by
      rw [if_pos hk] at hsent
      cases hsent
    rw [if_neg hk, lastStatus] at hsent
    refine ⟨sendCount outcomes - 1, by omega, succeedsAt_iff.mpr ⟨by omega, ?_⟩⟩
    cases houtcome : outcomes (sendCount outcomes - 1) with
    | none => rfl
    | some error => simp [houtcome] at hsent
  · rintro ⟨j, hj, hsucceeds⟩
    obtain ⟨hn, hresolved⟩ := succeedsAt_iff.mp hsucceeds
    rw [if_neg (by omega), lastStatus, ← hn, Nat.add_sub_cancel, hresolved]

theorem BudgetStage.failed_iff (h : BudgetStage i outcomes t k r) :
    r.status = .failed ↔ ∃ j < k, GivesUpAt outcomes j := by
  have hpos := (sendCount_spec outcomes).pos
  rw [h.status]
  constructor
  · intro hfailed
    have hk : ¬ k < sendCount outcomes := fun hk => by
      rw [if_pos hk] at hfailed
      cases hfailed
    rw [if_neg hk, lastStatus] at hfailed
    refine ⟨sendCount outcomes - 1, by omega, givesUpAt_iff.mpr ⟨by omega, ?_⟩⟩
    intro houtcome
    simp [houtcome] at hfailed
  · rintro ⟨j, hj, hgives⟩
    obtain ⟨hn, hfailed⟩ := givesUpAt_iff.mp hgives
    obtain ⟨error, herror⟩ := Option.ne_none_iff_exists'.mp hfailed
    rw [if_neg (by omega), lastStatus, ← hn, Nat.add_sub_cancel, herror]

theorem BudgetStage.pending_iff (h : BudgetStage i outcomes t k r) :
    r.status = .pending ↔ ∀ j < k, ¬ SucceedsAt outcomes j ∧ ¬ GivesUpAt outcomes j := by
  have hpos := (sendCount_spec outcomes).pos
  have hstill : r.status = .pending ↔ k < sendCount outcomes := by
    rw [h.status]
    by_cases hk : k < sendCount outcomes
    · exact iff_of_true (if_pos hk) hk
    · rw [if_neg hk]
      exact iff_of_false (lastStatus_ne_pending outcomes) hk
  rw [hstill]
  constructor
  · intro hk j hj
    refine ⟨fun hs => ?_, fun hg => ?_⟩
    · have := (succeedsAt_iff.mp hs).1
      omega
    · have := (givesUpAt_iff.mp hg).1
      omega
  · intro hnone
    by_contra hk
    -- the last send is one or the other
    obtain ⟨hs, hg⟩ := hnone (sendCount outcomes - 1) (by omega)
    rw [succeedsAt_iff, not_and] at hs
    rw [givesUpAt_iff, not_and, not_not] at hg
    exact hs (by omega) (hg (by omega))

end Row

include hcarries in
/-- **The budget.** A message that was never sent ends SENT with its first
success, or FAILED with its first permanent error or the transient failure that
uses up its retries, whichever comes first. -/
theorem keepsBudget (h : Rounds P i outcomes T) {r₀ : Row} (hget : (T 0).get i = some r₀)
    (hpending : r₀.status = .pending) (hzero : r₀.retryCount = 0) :
    KeepsBudget i outcomes T := by
  have hspec := sendCount_spec outcomes
  have hle := hspec.le
  have hpos := hspec.pos
  have hstage := stage_of_rounds hcarries h hget hpending hzero
  have hrow : ∀ k r, (T k).get i = some r → BudgetStage i outcomes (T k) k r := by
    intro k r hr
    obtain ⟨r', hr'⟩ := hstage k
    obtain rfl := Option.some.inj (hr'.row.symm.trans hr)
    exact hr'
  -- the sends are the first rounds, and all but the last are put back
  have hsends : ∀ k, Sends i T k ↔ k < sendCount outcomes := by
    intro k
    obtain ⟨r, hr⟩ := hstage k
    exact hr.sends_iff
  have hputs : ∀ k, PutsBackAt i T k ↔ k < sendCount outcomes - 1 := by
    intro k
    obtain ⟨r, hr⟩ := hstage k
    obtain ⟨r', hr'⟩ := hstage (k + 1)
    rw [putsBackAt_iff hr hr']
    omega
  refine
    { retryCount := fun k => ?_
      sends := fun k => ?_
      sent := fun k r hr => (hrow k r hr).sent_iff
      failed := fun k r hr => (hrow k r hr).failed_iff
      pending := fun k r hr => (hrow k r hr).pending_iff
      settles := ?_ }
  · obtain ⟨r, hr⟩ := hstage k
    refine ⟨r, hr.row, ?_, ?_⟩
    · rw [hr.retryCount, count_eq_min hputs]
    · rw [hr.retryCount]
      omega
  · rw [count_eq_min hsends]
    omega
  · refine ⟨sendCount outcomes - 1, by omega, ?_⟩
    rw [succeedsAt_iff, givesUpAt_iff]
    by_cases houtcome : outcomes (sendCount outcomes - 1) = none
    · exact .inl ⟨by omega, houtcome⟩
    · exact .inr ⟨by omega, houtcome⟩

end Rounds

/-! ## An example -/

/-- `dueTable` after the message was put back once, and after it was sent. -/
def tableAfter (status : ScheduledMessageStatus) : Table where
  rows := [{ dueMessage with status, retryCount := 1 }]
  nodup := List.nodup_singleton _

/-- The first send finds the service unavailable, the second succeeds. -/
def secondTime : Nat → Option Value
  | 0 => some (.obj [("code", .num 14)])
  | _ + 1 => none

/-- What is stored then. -/
def secondTimeTables : Nat → Table
  | 0 => dueTable
  | 1 => tableAfter .pending
  | _ + 2 => tableAfter .sent

theorem rounds_secondTime :
    Rounds (carrying fun _ => .invalid) "msg-1" secondTime secondTimeTables := by
  intro k
  cases k with
  | zero => exact .sent _ (tableAfter .pending) _ rfl rfl rfl
  | succ k =>
    cases k with
    | zero => exact .sent _ (tableAfter .sent) _ rfl rfl rfl
    | succ k => exact .idle rfl rfl

theorem keepsBudget_secondTime : KeepsBudget "msg-1" secondTime secondTimeTables :=
  keepsBudget (fun _ => rfl) rounds_secondTime
    (show (secondTimeTables 0).get "msg-1" = some dueMessage from rfl) rfl rfl

end SchedulingService.Messages
