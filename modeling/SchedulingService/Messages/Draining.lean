import SchedulingService.Lib.Batches
import SchedulingService.Messages.Handover
import SchedulingService.Messages.Tick

/-!
# The backlog drains

A tick takes the oldest hundred due messages, and one whose send fails may come
back to the front of the next batch. Each time it has been sent once more, and
after four sends there is no retry; so a message is in at most four batches, and
the batches of the others are full.

Main results:

* `Backlog.tick` — a tick is a round of the abstract batch server, in which a
  message has as much work left as it has sends left;
* `backlog_drains` — after `⌊4n/100⌋ + 4` ticks none of `n` due messages is
  PENDING.
-/

namespace SchedulingService.Messages

open Js

/-- A number of ticks that have the lock, one after the other. -/
inductive Ticks (P : Platform) : Nat → Sys → Sys → Prop
  | zero {s : Sys} : Ticks P 0 s s
  | succ {k : Nat} {t : TickId} {s s₁ s' : Sys} :
      FullTick P t s s₁ → Ticks P k s₁ s' → Ticks P (k + 1) s s'

/-- How often a message can still be sent. -/
def sendsLeft (T : Table) (i : Id) : Nat :=
  match T.get i with
  | some r => if r.status = .pending then RETRY_LIMIT + 1 - r.retryCount else 0
  | none => 0

/-- The messages due at `t₀` and PENDING then are under `ids`; they are PENDING
still, or done with. Other messages that are PENDING were due later. -/
structure Backlog (ids : Finset Id) (t₀ : Int) (T : Table) : Prop where
  member : ∀ i ∈ ids, ∃ r, T.get i = some r ∧
    (r.status = .sent ∨ r.status = .failed ∨
      r.status = .pending ∧ r.scheduledAt ≤ t₀ ∧ r.retryCount ≤ RETRY_LIMIT)
  other : ∀ i, i ∉ ids → ∀ r, T.get i = some r → r.status = .pending → t₀ < r.scheduledAt

/-! ## Batches -/

/-- In a list that has the elements with `p` in front. -/
theorem filter_append_filter {α : Type} {p : α → Bool} {l : List α}
    (h : l.Pairwise fun a b => p b = true → p a = true) :
    l.filter p ++ l.filter (fun a => !p a) = l := by
  induction l with
  | nil => rfl
  | cons a l ih =>
    obtain ⟨ha, hl⟩ := List.pairwise_cons.mp h
    cases hp : p a with
    | true => simp [hp, ih hl]
    | false =>
      -- from the first element without `p` on none has it
      have hnone : ∀ b ∈ l, p b = false := by
        intro b hb
        cases hpb : p b with
        | false => rfl
        | true => exact absurd (ha b hb hpb) (by simp [hp])
      have hfilter : l.filter p = [] := List.filter_eq_nil_iff.mpr fun b hb => by simp [hnone b hb]
      have hall : l.filter (fun a => !p a) = l :=
        List.filter_eq_self.mpr fun b hb => by simp [hnone b hb]
      simp [hp, hfilter, hall]

/-- The first `n` elements all have `p`, or every element with `p` is among
them. -/
theorem take_of_front {α : Type} {p : α → Bool} {l : List α} (n : Nat)
    (h : l.Pairwise fun a b => p b = true → p a = true) :
    ((l.take n).length = n ∧ ∀ a ∈ l.take n, p a = true) ∨
      ∀ a ∈ l, p a = true → a ∈ l.take n := by
  have hsplit := filter_append_filter h
  by_cases hn : n ≤ (l.filter p).length
  · left
    rw [← hsplit, List.take_append_of_le_length hn]
    refine ⟨List.length_take_of_le hn, fun a ha => ?_⟩
    exact (List.mem_filter.mp (List.mem_of_mem_take ha)).2
  · right
    intro a ha hp
    rw [← hsplit, List.take_append]
    refine List.mem_append_left _ ?_
    rw [List.take_of_length_le (by omega)]
    exact List.mem_filter.mpr ⟨ha, hp⟩

section Tick

variable {T T' : Table} {t₀ t₁ : Int} {ids : Finset Id} {batch : List Id}

/-- A message of the backlog that is PENDING was due then, and has sends left. -/
theorem Backlog.of_pending (h : Backlog ids t₀ T) {i : Id} (hi : i ∈ ids) {r : Row}
    (hr : T.get i = some r) (hpending : r.status = .pending) :
    r.scheduledAt ≤ t₀ ∧ r.retryCount ≤ RETRY_LIMIT := by
  obtain ⟨q, hq, hcase⟩ := h.member i hi
  obtain rfl := Option.some.inj (hr.symm.trans hq)
  rcases hcase with hsent | hfailed | ⟨-, hdue, hless⟩
  · rw [hpending] at hsent
    cases hsent
  · rw [hpending] at hfailed
    cases hfailed
  · exact ⟨hdue, hless⟩

/-- The messages of the backlog are the first in the order of the candidate
query. -/
theorem Backlog.front (h : Backlog ids t₀ T) {now : Int} {order : List Id}
    (hsel : Selects T now order) :
    order.Pairwise fun a b => decide (b ∈ ids) = true → decide (a ∈ ids) = true := by
  have hsorted := List.pairwise_filterMap.mp hsel.2
  refine hsorted.imp_of_mem fun {a b} ha hb hle hmem => ?_
  obtain ⟨ra, hra, hduea⟩ := (mem_selects hsel).mp ha
  obtain ⟨rb, hrb, hdueb⟩ := (mem_selects hsel).mp hb
  have hearlier := hle ra hra rb hrb
  by_contra hout
  -- `b` was due at `t₀`, and `a`, which is not of the backlog, after that
  have hlate := h.other a (by simpa using hout) ra hra (of_decide_eq_true hduea).1
  have hdue := (h.of_pending (by simpa using hmem) hrb (of_decide_eq_true hdueb).1).1
  omega

/-- A message that is settled has one send less. -/
theorem sendsLeft_settled {i : Id} {r r' : Row} (hr : T.get i = some r)
    (hpending : r.status = .pending) (hless : r.retryCount ≤ RETRY_LIMIT)
    (hr' : T'.get i = some r') (hsettled : Settled r r') : sendsLeft T' i < sendsLeft T i := by
  simp only [sendsLeft, hr, hr', hpending, if_true]
  cases hsettled with
  | sent => simp only [reduceCtorEq, if_false]; omega
  | failed => simp only [reduceCtorEq, if_false]; omega
  | retried hlimit => simp only [if_true]; omega

/-- A message of the backlog that is PENDING has sends left. -/
theorem Backlog.pending_of_mem (h : Backlog ids t₀ T) {i : Id} (hi : i ∈ ids) :
    0 < sendsLeft T i ↔ ∃ r, T.get i = some r ∧ r.status = .pending := by
  obtain ⟨r, hr, hcase⟩ := h.member i hi
  simp only [sendsLeft, hr, Option.some.injEq, exists_eq_left']
  rcases hcase with hsent | hfailed | ⟨hpending, -, hless⟩
  · simp [hsent]
  · simp [hfailed]
  · simp only [hpending, if_true, iff_true]
    omega

/-- What a tick makes of the backlog. -/
theorem Backlog.effect (h : Backlog ids t₀ T) (heffect : Effect T T' [] batch) :
    Backlog ids t₀ T' where
  member i hi := by
    by_cases hbatch : i ∈ batch
    · obtain ⟨r, r', hr, hpending, hr', hsettled⟩ := heffect.done i hbatch
      refine ⟨r', hr', ?_⟩
      cases hsettled with
      | sent => exact .inl rfl
      | failed => exact .inr (.inl rfl)
      | retried hless =>
        -- a retry does not postpone
        exact .inr (.inr ⟨rfl, (h.of_pending hi hr hpending).1, hless⟩)
    · obtain ⟨r, hr, hcase⟩ := h.member i hi
      exact ⟨r, (heffect.other i List.not_mem_nil hbatch).trans hr, hcase⟩
  other i hi r' hr' hpending' := by
    by_cases hbatch : i ∈ batch
    · obtain ⟨r, q, hr, hpending, hq, hsettled⟩ := heffect.done i hbatch
      obtain rfl := Option.some.inj (hr'.symm.trans hq)
      rw [hsettled.scheduledAt_eq]
      exact h.other i hi r hr hpending
    · rw [heffect.other i List.not_mem_nil hbatch] at hr'
      exact h.other i hi r' hr' hpending'

/-- **A tick is a round**: it sends a hundred messages of the backlog, or all
that are left. -/
theorem Backlog.tick (h : Backlog ids t₀ T) (ht : t₀ ≤ t₁) (hbatch : Candidates T t₁ batch)
    (heffect : Effect T T' [] batch) :
    Batches.Round PROCESS_BATCH_SIZE ids (sendsLeft T) (sendsLeft T') := by
  have hless : ∀ i ∈ ids, i ∈ batch → sendsLeft T' i < sendsLeft T i := by
    intro i hi hmem
    obtain ⟨r, r', hr, hpending, hr', hsettled⟩ := heffect.done i hmem
    have hlimit := (h.of_pending hi hr hpending).2
    exact sendsLeft_settled hr hpending hlimit hr' hsettled
  refine ⟨ids.filter (· ∈ batch), ⟨?_, ?_, ?_, ?_⟩⟩
  · intro i hi
    obtain ⟨hmem, hin⟩ := Finset.mem_filter.mp hi
    exact Finset.mem_filter.mpr ⟨hmem, Nat.zero_lt_of_lt (hless i hmem hin)⟩
  · intro i hi
    by_cases hin : i ∈ batch
    · exact (hless i hi hin).le
    · unfold sendsLeft
      rw [heffect.other i List.not_mem_nil hin]
  · intro i hi
    obtain ⟨hmem, hin⟩ := Finset.mem_filter.mp hi
    exact hless i hmem hin
  · obtain ⟨now, order, hnow, hsel, hperm⟩ := hbatch.selected
    rcases take_of_front PROCESS_BATCH_SIZE (h.front hsel) with ⟨hlength, hall⟩ | hrest
    · left
      -- the whole batch is of the backlog
      have heq : ids.filter (· ∈ batch) = batch.toFinset := by
        ext i
        rw [Finset.mem_filter, List.mem_toFinset]
        refine and_iff_right_of_imp fun hin => ?_
        exact of_decide_eq_true (hall i (hperm.mem_iff.mp hin))
      rw [heq, List.toFinset_card_of_nodup hbatch.nodup, hperm.length_eq]
      exact hlength
    · right
      -- every message of the backlog that can be sent is in the batch
      ext i
      rw [Batches.left, Finset.mem_filter, Finset.mem_filter]
      refine and_congr_right fun hi => ?_
      rw [h.pending_of_mem hi]
      constructor
      · intro hin
        obtain ⟨r, -, hr, hpending, -⟩ := heffect.done i hin
        exact ⟨r, hr, hpending⟩
      · rintro ⟨r, hr, hpending⟩
        have hdue : r.scheduledAt ≤ now :=
          (h.of_pending hi hr hpending).1.trans (ht.trans hnow)
        have hmem : i ∈ order :=
          (mem_selects hsel).mpr ⟨r, hr, decide_eq_true ⟨hpending, hdue⟩⟩
        exact hperm.mem_iff.mpr (hrest i hmem (decide_eq_true hi))

end Tick

/-! ## Runs -/

section Run

variable {newDate : String → Date} {s s' : Sys}

/-- **Run lemma.** -/
theorem Backlog.ticks {ids : Finset Id} {t₀ : Int} {k : Nat}
    (hticks : Ticks (carrying newDate) k s s') (h : Backlog ids t₀ s.table) (ht : t₀ ≤ s.now) :
    Backlog ids t₀ s'.table ∧
      Batches.Rounds PROCESS_BATCH_SIZE ids k (sendsLeft s.table) (sendsLeft s'.table) := by
  induction hticks with
  | zero => exact ⟨h, .zero⟩
  | succ htick _ ih =>
    obtain ⟨hnow, batch, hbatch, heffect⟩ := tick_effect htick
    obtain ⟨hbacklog, hrounds⟩ := ih (h.effect heffect) (Int.le_trans ht hnow)
    exact ⟨hbacklog, .succ (h.tick ht hbatch heffect) hrounds⟩

/-- The messages that are due now. -/
def Sys.due (s : Sys) : List Row := s.table.rows.filter (Row.due s.now)

/-- Their ids. -/
def Sys.dueIds (s : Sys) : Finset Id := (s.due.map Row.id).toFinset

theorem Sys.card_dueIds (s : Sys) : s.dueIds.card = s.due.length := by
  have hnodup : (s.due.map Row.id).Nodup :=
    s.table.nodup.sublist (List.Sublist.map Row.id List.filter_sublist)
  rw [Sys.dueIds, List.toFinset_card_of_nodup hnodup, List.length_map]

theorem Sys.mem_dueIds {i : Id} :
    i ∈ s.dueIds ↔ ∃ r, s.table.get i = some r ∧ r.due s.now = true := by
  rw [Sys.dueIds, List.mem_toFinset]
  exact mem_due

/-- They are the backlog. -/
theorem backlog_due (hretries : ∀ r ∈ s.due, r.retryCount ≤ RETRY_LIMIT) :
    Backlog s.dueIds s.now s.table where
  member i hi := by
    obtain ⟨r, hr, hdue⟩ := Sys.mem_dueIds.mp hi
    obtain ⟨hpending, htime⟩ : r.status = .pending ∧ r.scheduledAt ≤ s.now := of_decide_eq_true hdue
    have hmem : r ∈ s.due := List.mem_filter.mpr ⟨(Keyed.get_eq_some.mp hr).1, hdue⟩
    exact ⟨r, hr, .inr (.inr ⟨hpending, htime, hretries r hmem⟩)⟩
  other i hi r hr hpending := by
    by_contra hearly
    exact hi (Sys.mem_dueIds.mpr ⟨r, hr, decide_eq_true ⟨hpending, Int.not_lt.mp hearly⟩⟩)

/-- **The backlog drains.** Of `n` messages that are due, none is PENDING after
`⌊4n/100⌋ + 4` ticks, however their sends come out. -/
theorem backlog_drains {k : Nat} (hretries : ∀ r ∈ s.due, r.retryCount ≤ RETRY_LIMIT)
    (hticks : Ticks (carrying newDate) k s s') (hk : 4 * s.due.length / 100 + 4 ≤ k) :
    ∀ r ∈ s.due, ∃ r', s'.table.get r.id = some r' ∧
      (r'.status = .sent ∨ r'.status = .failed) := by
  have hbacklog := backlog_due hretries
  obtain ⟨hbacklog', hrounds⟩ := hbacklog.ticks hticks le_rfl
  -- three retries come after a first send
  have hfour : ∀ i ∈ s.dueIds, sendsLeft s.table i ≤ 4 := by
    intro i _
    unfold sendsLeft
    split
    · split
      · exact Nat.sub_le _ _
      · exact Nat.zero_le _
    · exact Nat.zero_le _
  have hsum : ∑ i ∈ s.dueIds, sendsLeft s.table i ≤ 4 * s.due.length := by
    rw [← Sys.card_dueIds]
    exact Batches.sum_le_mul_card hfour
  have hdone := Batches.done_of_rounds (by decide) hrounds hfour
    ((Nat.add_le_add_right (Nat.div_le_div_right hsum) 4).trans hk)
  intro r hr
  have hmem : r.id ∈ s.dueIds := List.mem_toFinset.mpr (List.mem_map_of_mem hr)
  obtain ⟨r', hr', hcase⟩ := hbacklog'.member r.id hmem
  refine ⟨r', hr', ?_⟩
  rcases hcase with hsent | hfailed | ⟨hpending, -, -⟩
  · exact .inl hsent
  · exact .inr hfailed
  · -- it would have a send left
    have hpos := (hbacklog'.pending_of_mem hmem).mpr ⟨r', hr', hpending⟩
    rw [hdone r.id hmem] at hpos
    exact absurd hpos (by decide)

end Run

/-- The run of tick `n` in which `msg-1` is sent and the service is
unavailable. -/
def unavailableTick (n : Nat) : List Event :=
  let t : TickId := ⟨"pod-a", n⟩
  [.acquire t, .select t 60000 ["msg-1"], .claimRow t "msg-1", .claimed t, .send t,
    .sendError t (clientError (.obj [("code", .num (.fin 14))])), .saved t, .release t true]

/-- The state after the first `n` of them. -/
def afterTicks : Nat → Sys
  | 0 => Sys.start 60000 dueTable
  | n + 1 => ((machine (carrying fun _ => .invalid)).exec (afterTicks n) (unavailableTick n)).getD
      (afterTicks n)

theorem fullTick_afterTicks {n : Nat} (hidle : (afterTicks n).phase ⟨"pod-a", n⟩ = .idle)
    (hunlocked : (afterTicks n).lockedAt ⟨"pod-a", n⟩ = none)
    (hexec : ((machine (carrying fun _ => .invalid)).exec (afterTicks n)
      (unavailableTick n)).isSome = true)
    (hobtained : ((afterTicks (n + 1)).lockedAt ⟨"pod-a", n⟩).isSome = true)
    (hfinished : (afterTicks (n + 1)).phase ⟨"pod-a", n⟩ = .finished) :
    FullTick (carrying fun _ => .invalid) ⟨"pod-a", n⟩ (afterTicks n) (afterTicks (n + 1)) where
  idle := hidle
  unlocked := hunlocked
  run := by
    obtain ⟨s', hs'⟩ := Option.isSome_iff_exists.mp hexec
    have hnext : afterTicks (n + 1) = s' := by rw [afterTicks, hs', Option.getD_some]
    rw [hnext]
    -- each of the eight events is one of the tick's
    refine .of_exec (fun e he s => ?_) hs'
    simp only [unavailableTick, List.mem_cons, List.not_mem_nil, or_false] at he
    rcases he with rfl | rfl | rfl | rfl | rfl | rfl | rfl | rfl
    · exact rfl
    · exact rfl
    · exact rfl
    · exact rfl
    · exact rfl
    · exact ⟨rfl, _, rfl⟩
    · exact rfl
    · exact rfl
  obtained := Option.isSome_iff_ne_none.mp hobtained
  finished := hfinished

/-- One message whose sends all fail is FAILED after four ticks. -/
theorem backlog_drains_four :
    ∃ r', (afterTicks 4).table.get dueMessage.id = some r' ∧
      (r'.status = .sent ∨ r'.status = .failed) := by
  have hticks : Ticks (carrying fun _ => .invalid) 4 (afterTicks 0) (afterTicks 4) :=
    .succ (fullTick_afterTicks rfl rfl (by decide) (by decide) rfl) <|
    .succ (fullTick_afterTicks rfl rfl (by decide) (by decide) rfl) <|
    .succ (fullTick_afterTicks rfl rfl (by decide) (by decide) rfl) <|
    .succ (fullTick_afterTicks rfl rfl (by decide) (by decide) rfl) .zero
  have hdue : dueMessage ∈ (afterTicks 0).due := List.mem_singleton.mpr rfl
  exact backlog_drains (by decide) hticks (by decide) dueMessage hdue

end SchedulingService.Messages
