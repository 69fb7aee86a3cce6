import SchedulingService.Messages.Steps

/-!
# From claimed row to entity

`claimDueMessages` run without interruption, and what `sendMessage` gets from
it. The UPDATE answers rows keyed by column name, `Repository.create` reads
properties, so of `user_id`, `conversation_id`, `scheduled_at` and
`retry_count` nothing arrives.

* `exec_claimEvents` — the events of an undisturbed claim compute
  `claimDueMessages`;
* `handedFaithfully_iff` — the rows of a tick arrive whole exactly when there
  is none.
-/

namespace SchedulingService.Messages

open Js

/-! ## An undisturbed claim -/

/-- The events of `claimDueMessages`, with nothing in between. -/
def claimEvents (t : TickId) (now : Int) (order visit : List Id) : List Event :=
  .select t now order :: visit.map (.claimRow t) ++ [.claimed t]

/-- The UPDATE visits its candidates one by one. -/
theorem exec_claimRows {P : Platform} {t : TickId} {now : Int} {visit : List Id}
    {s : Sys} {ids : List Id} {raw : List Row} (hph : s.phase t = .claiming now ids raw)
    (hvisit : visit.Perm ids) :
    (machine P).exec s (visit.map (.claimRow t)) =
      some { s.goto t (.claiming now [] (raw ++ (claimRows s.table visit).2)) with
        table := (claimRows s.table visit).1 } := by
  induction visit generalizing s ids raw with
  | nil =>
    obtain rfl := hvisit.nil_eq
    have hgoto : Function.update s.phase t (.claiming now [] raw) = s.phase := by
      rw [← hph]
      exact Function.update_eq_self t s.phase
    simp [Machine.exec, claimRows, Sys.goto, hgoto]
  -- induction on the visits: the table and the answer grow as in `claimRows`
  | cons i visit ih =>
    have hi : i ∈ ids := hvisit.subset List.mem_cons_self
    have hrest : visit.Perm (ids.erase i) := List.cons_perm_iff_perm_erase.mp hvisit |>.2
    rw [List.map_cons, Machine.exec]
    cases hr : claimRow s.table i with
    | none =>
      have hstep : (machine P).step s (.claimRow t i) =
          some (s.goto t (.claiming now (ids.erase i) raw)) := by
        simp [machine, step, hph, hi, hr]
      have hph' : (s.goto t (.claiming now (ids.erase i) raw)).phase t =
          .claiming now (ids.erase i) raw := by simp
      rw [hstep, Option.bind_some, ih hph' hrest, claimRows_cons_of_none visit hr]
      simp [Sys.goto]
    | some p =>
      obtain ⟨t', r⟩ := p
      have hstep : (machine P).step s (.claimRow t i) =
          some { s.goto t (.claiming now (ids.erase i) (raw ++ [r])) with table := t' } := by
        simp [machine, step, hph, hi, hr]
      have hph' : { s.goto t (.claiming now (ids.erase i) (raw ++ [r])) with
          table := t' }.phase t = .claiming now (ids.erase i) (raw ++ [r]) := by simp
      rw [hstep, Option.bind_some, ih hph' hrest, claimRows_cons_of_some visit hr]
      simp [Sys.goto]

/-- **The events compute the function.** -/
theorem exec_claimEvents {P : Platform} {t : TickId} {T now : Int} {order visit : List Id}
    {s : Sys} (hph : s.phase t = .locked) (hT : s.lockedAt t = some T) (hle : T ≤ now)
    (hnow : now ≤ s.now) (hsel : Selects s.table now order)
    (hvisit : visit.Perm (candidateIds order)) :
    (machine P).exec s (claimEvents t now order visit) =
      some { s.goto t (.loop (claimDueMessages P s.table visit).2) with
        table := (claimDueMessages P s.table visit).1 } := by
  have hselect : (machine P).step s (.select t now order) =
      some (s.goto t (.claiming now (candidateIds order) [])) := by
    simp [machine, step, hph, hT, hle, hnow, hsel]
  have hph' : (s.goto t (.claiming now (candidateIds order) [])).phase t =
      .claiming now (candidateIds order) [] := by simp
  rw [claimEvents, List.cons_append, Machine.exec, hselect, Option.bind_some,
    Machine.exec_append, exec_claimRows hph' hvisit]
  simp [Machine.exec, machine, step, claimDueMessages, Sys.goto]

/-! ## What arrives -/

/-- The entity has the row's columns, the request built from it is the row's,
and the retry decision is the row's. -/
structure HandedFaithfully (m : ScheduledMessage) (r : Row) : Prop where
  id             : m.id = .val r.id
  userId         : m.userId = .val r.userId
  conversationId : m.conversationId = .val r.conversationId
  content        : m.content = .val r.content
  metadata       : m.metadata = .ofNullable r.metadata
  scheduledAt    : m.scheduledAt = .val (.ms r.scheduledAt)
  retryCount     : m.retryCount = .val r.retryCount
  request        : sendRequest m = {
    conversationId := .val r.conversationId
    senderId := .val r.userId
    messageType := "TEXT"
    content := .val r.content
    metadata := metadataOrEmpty r.metadata
    scheduledFor := .val (.ms r.scheduledAt) }
  retry          : retryBelowLimit m.retryCount = decide (r.retryCount < RETRY_LIMIT)

/-- Every row the tick claims in `t` is handed to `sendMessage` faithfully. -/
def ClaimHandsOver (P : Platform) (t : Table) (visit : List Id) : Prop :=
  ∀ r ∈ (claimRows t visit).2, HandedFaithfully (P.materialize r) r

/-- The entities of `find`, by contrast, are faithful. -/
theorem handedFaithfully_ofRow (r : Row) : HandedFaithfully (.ofRow r) r := by
  refine ⟨rfl, rfl, rfl, rfl, rfl, rfl, rfl, ?_, rfl⟩
  simp [sendRequest, ScheduledMessage.ofRow]

/-- A tick whose claimed entities were made like those of `find` would hand every
row over whole. -/
theorem claimHandsOver_carrying (newDate : String → Date) (t : Table) (visit : List Id) :
    ClaimHandsOver (carrying newDate) t visit :=
  fun r _ => handedFaithfully_ofRow r

/-- An entity made from an answer of the UPDATE is not. -/
theorem not_handedFaithfully (newDate : String → Date) (r : Row) :
    ¬ HandedFaithfully ((typeorm newDate).materialize r) r := by
  intro h
  -- one missing property is enough
  have := h.conversationId
  rw [show (typeorm newDate).materialize r = repositoryCreate r.returningAll from rfl,
    repositoryCreate_returningAll] at this
  exact absurd this (by simp)

/-- Nothing is claimed exactly when nothing is due. -/
theorem claimRows_eq_nil_iff_due {t : Table} {now : Int} {order visit : List Id}
    (hsel : Selects t now order) (hvisit : visit.Perm (candidateIds order)) :
    (claimRows t visit).2 = [] ↔ ∀ r ∈ t.rows, r.due now = false := by
  rw [claimRows_eq_nil]
  constructor
  · intro hnone r hr
    by_contra hdue
    rw [Bool.not_eq_false] at hdue
    -- a due row makes the answer of the query, hence the batch, non-empty
    have hmem : r.id ∈ order :=
      (mem_selects hsel).mpr ⟨r, Keyed.get_eq_some.mpr ⟨hr, rfl⟩, hdue⟩
    obtain ⟨i, rest, rfl⟩ := List.exists_cons_of_ne_nil (List.ne_nil_of_mem hmem)
    obtain ⟨q, hq, hqdue⟩ := (mem_selects hsel).mp List.mem_cons_self
    have hi : i ∈ visit := hvisit.symm.subset (by simp [candidateIds, PROCESS_BATCH_SIZE])
    have hpend : q.status = .pending := (of_decide_eq_true hqdue).1
    exact claimRow_eq_none.mp (hnone i hi) q hq hpend
  · intro hdue i hi
    obtain ⟨q, hq, hqdue⟩ := (mem_selects hsel).mp (List.mem_of_mem_take (hvisit.subset hi))
    rw [hdue q (Keyed.get_eq_some.mp hq).1] at hqdue
    exact absurd hqdue (by simp)

/-- **When the claim hands rows over whole.** For every table and every tick:
exactly when no message is due, that is, when there is nothing to hand over. -/
theorem handedFaithfully_iff (newDate : String → Date) {t : Table} {now : Int}
    {order visit : List Id} (hsel : Selects t now order)
    (hvisit : visit.Perm (candidateIds order)) :
    ClaimHandsOver (typeorm newDate) t visit ↔ ∀ r ∈ t.rows, r.due now = false := by
  rw [← claimRows_eq_nil_iff_due hsel hvisit]
  constructor
  · intro h
    by_contra hne
    obtain ⟨r, rest, hraw⟩ := List.exists_cons_of_ne_nil hne
    exact not_handedFaithfully newDate r (h r (by rw [hraw]; simp))
  · intro hnil r hr
    rw [hnil] at hr
    exact absurd hr (by simp)

/-- A due message, with an author's metadata and no failure yet. -/
def dueMessage : Row where
  id := "msg-1"
  userId := "u"
  conversationId := "c"
  content := "hello"
  metadata := some (.obj [("type", .str "reminder")])
  scheduledAt := 0
  status := .pending
  retryCount := 0

def dueTable : Table where
  rows := [dueMessage]
  nodup := by decide

theorem handedFaithfully_iff_dueTable :
    ClaimHandsOver (typeorm fun _ => .invalid) dueTable ["msg-1"] ↔
      ∀ r ∈ dueTable.rows, r.due 60000 = false :=
  handedFaithfully_iff (fun _ => .invalid)
    (show Selects dueTable 60000 ["msg-1"] by decide) (by decide)

/-- The tick that claims `dueMessage` sends it to no conversation, from no
sender and for no time, and would not retry it. -/
theorem dueMessage_not_handed_over :
    ∃ now order visit, Selects dueTable now order ∧ visit.Perm (candidateIds order) ∧
      ¬ ClaimHandsOver (typeorm fun _ => .invalid) dueTable visit ∧
      ∀ m ∈ (claimDueMessages (typeorm fun _ => .invalid) dueTable visit).2,
        m.conversationId = .undefined ∧ m.userId = .undefined ∧
        m.scheduledAt = .undefined ∧ retryBelowLimit m.retryCount = false := by
  refine ⟨60000, ["msg-1"], ["msg-1"], by decide, by decide, fun h => ?_, by decide⟩
  have hclaimed : (claimRows dueTable ["msg-1"]).2 = [{ dueMessage with status := .processing }] :=
    rfl
  exact not_handedFaithfully _ _ (h _ (by rw [hclaimed]; exact List.mem_singleton_self _))

end SchedulingService.Messages
