import SchedulingService.Messages.Steps

/-!
# One tick by itself

A tick that no other event interferes with, whose claims and saves succeed and
whose claimed entities carry their rows: what it makes of the table. Every send
may come out either way.

Main results:

* `Effect` — between its candidate query and its end, row by row;
* `Stage.step`, `tick_effect` — a tick that has the lock takes the first hundred
  due rows and settles each.
-/

namespace SchedulingService.Messages

open Js

/-- What `MessagingGrpcClient.sendScheduledMessage` rejects with when its call
threw `error`: its catch block reads `error.message`, which is itself a
TypeError if there is no error object. -/
def clientError (error : Value) : Value :=
  if error.isNullish then .obj [("name", .str "TypeError")] else error

theorem clientError_isNullish (error : Value) : (clientError error).isNullish = false := by
  unfold clientError
  cases h : error.isNullish with
  | true => rfl
  | false => simpa using h

/-- A step of tick `t` that is no failure but that of a send, or the passing of
time. -/
def Event.smooth (t : TickId) : Event → Prop
  | .elapse _ => True
  | .acquire u => u = t
  | .select u _ _ => u = t
  | .claimRow u _ => u = t
  | .claimed u => u = t
  | .send u => u = t
  | .ack u => u = t
  | .sendError u error => u = t ∧ ∃ thrown, error = clientError thrown
  | .saved u => u = t
  | .release u _ => u = t
  | _ => False

/-! ## One row -/

/-- What becomes of a claimed row. -/
inductive Settled (r : Row) : Row → Prop
  | sent : Settled r { r with status := .sent }
  | failed : Settled r { r with status := .failed }
  | retried (h : r.retryCount < RETRY_LIMIT) :
      Settled r { r with status := .pending, retryCount := r.retryCount + 1 }

namespace Settled

variable {r r' : Row}

theorem id_eq (h : Settled r r') : r'.id = r.id := by
  cases h <;> rfl

theorem scheduledAt_eq (h : Settled r r') : r'.scheduledAt = r.scheduledAt := by
  cases h <;> rfl

/-- The status it was claimed with is overwritten. -/
theorem of_claimed {status : ScheduledMessageStatus} (h : Settled { r with status } r') :
    Settled r r' := by
  cases h with
  | sent => exact .sent
  | failed => exact .failed
  | retried hless => exact .retried hless

/-- The other rows of a loop stay as they are. -/
theorem others (h : Settled r r') {T : Table} {rows : List Row} (hnew : r.id ∉ rows.map Row.id)
    (hrows : ∀ q ∈ rows, T.get q.id = some q) : ∀ q ∈ rows, (T.put r').get q.id = some q := by
  intro q hq
  have hne : q.id ≠ r'.id := by
    rw [h.id_eq]
    exact fun hsame => hnew (hsame ▸ List.mem_map_of_mem hq)
  exact (Keyed.get_put_of_ne T hne).trans (hrows q hq)

end Settled

@[simp] theorem writeNullable_ofNullable {α : Type} (old new : Option α) :
    writeNullable old (.ofNullable new) = new := by
  cases new <;> rfl

/-- The save after a send stores the row as SENT. -/
theorem overwrite_onSent (r : Row) :
    (onSent (.ofRow r)).overwrite r = some { r with status := .sent } := by
  simp [onSent, ScheduledMessage.ofRow, ScheduledMessage.overwrite, writeColumn, writeTimestamp,
    timestamp]

/-- The save in the catch block settles it, one way or the other. -/
theorem overwrite_onSendError (error : Value) (r : Row) :
    ∃ r', (onSendError error (.ofRow r)).overwrite r = some r' ∧ Settled r r' := by
  unfold onSendError
  cases hretry : canRetry error (.ofRow r) with
  | true =>
    have hless : r.retryCount < RETRY_LIMIT := by
      simp only [canRetry, Bool.and_eq_true] at hretry
      exact of_decide_eq_true hretry.2
    refine ⟨_, ?_, .retried hless⟩
    simp [ScheduledMessage.ofRow, ScheduledMessage.overwrite, writeColumn, writeTimestamp,
      timestamp, incrRetry]
  | false =>
    refine ⟨_, ?_, .failed⟩
    simp [ScheduledMessage.ofRow, ScheduledMessage.overwrite, writeColumn, writeTimestamp,
      timestamp]

/-- The entity of a message being saved. -/
def Answered (m : ScheduledMessage) (r : Row) : Prop :=
  m = onSent (.ofRow r) ∨ ∃ error, m = onSendError error (.ofRow r)

theorem save_answered {T : Table} {m : ScheduledMessage} {r : Row} (hm : Answered m r)
    (hr : T.get r.id = some r) : ∃ r', save T m = some (T.put r') ∧ Settled r r' := by
  obtain ⟨r', hover, hsettled⟩ : ∃ r', m.overwrite r = some r' ∧ Settled r r' := by
    rcases hm with rfl | ⟨error, rfl⟩
    · exact ⟨_, overwrite_onSent r, .sent⟩
    · exact overwrite_onSendError error r
  have hid : m.id = .val r.id := by
    rcases hm with rfl | ⟨error, rfl⟩
    · rfl
    · rw [onSendError_id]
      rfl
  exact ⟨r', by simp [save, hid, hr, hover], hsettled⟩

/-! ## The table -/

/-- What a tick has made of the table `T₀` so far: the rows under `held` are
claimed, those under `done` are settled, the others are as they were. -/
structure Effect (T₀ T : Table) (held done : List Id) : Prop where
  other : ∀ i, i ∉ held → i ∉ done → T.get i = T₀.get i
  held : ∀ i ∈ held, ∃ r, T₀.get i = some r ∧ r.status = .pending ∧
    T.get i = some { r with status := .processing }
  done : ∀ i ∈ done, ∃ r r', T₀.get i = some r ∧ r.status = .pending ∧ T.get i = some r' ∧
    Settled r r'

namespace Effect

variable {T₀ T T' : Table} {held done : List Id}

theorem refl (T : Table) : Effect T T [] [] :=
  ⟨fun _ _ _ => rfl, fun _ hi => absurd hi List.not_mem_nil, fun _ hi => absurd hi List.not_mem_nil⟩

theorem claim (h : Effect T₀ T held []) {r r' : Row} (hclaim : Claimed T T' r r')
    (hnew : r.id ∉ held) : Effect T₀ T' (held ++ [r.id]) [] where
  other i hi hdone := by
    rw [List.mem_append, List.mem_singleton, not_or] at hi
    rw [hclaim.get_of_ne hi.2]
    exact h.other i hi.1 hdone
  held i hi := by
    by_cases hsame : i = r.id
    · subst hsame
      refine ⟨r, ?_, hclaim.wasPending, by rw [hclaim.get_self, hclaim.row_eq]⟩
      rw [← h.other r.id hnew List.not_mem_nil]
      exact hclaim.before
    · rw [hclaim.get_of_ne hsame]
      exact h.held i ((List.mem_append.mp hi).resolve_right (by simpa using hsame))
  done i hi := absurd hi List.not_mem_nil

theorem settle {r r' : Row} (h : Effect T₀ T (r.id :: held) done) (hr : T.get r.id = some r)
    (hnew : r.id ∉ held) (hsettled : Settled r r') :
    Effect T₀ (T.put r') held (done ++ [r.id]) := by
  have hself : (T.put r').get r.id = some r' := by
    rw [← hsettled.id_eq]
    exact Keyed.get_put_self (by rw [hsettled.id_eq]; exact hr)
  have hothers : ∀ i, i ≠ r.id → (T.put r').get i = T.get i := fun i hi =>
    Keyed.get_put_of_ne T (by rwa [hsettled.id_eq])
  constructor
  · intro i hi hdone
    rw [List.mem_append, List.mem_singleton, not_or] at hdone
    rw [hothers i hdone.2]
    exact h.other i (List.not_mem_cons_of_ne_of_not_mem hdone.2 hi) hdone.1
  · intro i hi
    rw [hothers i (fun hsame => hnew (hsame ▸ hi))]
    exact h.held i (List.mem_cons_of_mem _ hi)
  · intro i hi
    by_cases hsame : i = r.id
    · -- the row was PENDING before it was claimed, and is settled from there
      subst hsame
      obtain ⟨r₀, h₀, hpending, hclaimed⟩ := h.held r.id List.mem_cons_self
      obtain rfl := Option.some.inj (hr.symm.trans hclaimed)
      exact ⟨r₀, r', h₀, hpending, hself, hsettled.of_claimed⟩
    · rw [hothers i hsame]
      exact h.done i ((List.mem_append.mp hi).resolve_right (by simpa using hsame))

end Effect

/-! ## The tick -/

/-- Where the loop stands whose messages left are those of `rows`. -/
inductive InLoop : Phase → List Row → Prop
  | sending (r : Row) (rows : List Row) :
      InLoop (.sending (.ofRow r) (rows.map .ofRow)) (r :: rows)
  | calling (r : Row) (rows : List Row) :
      InLoop (.calling (.ofRow r) (rows.map .ofRow)) (r :: rows)
  | saving (r : Row) (rows : List Row) (m : ScheduledMessage) (site : SaveSite)
      (hm : Answered m r) (hgoes : site.goesOn = true) :
      InLoop (.saving m site (rows.map .ofRow)) (r :: rows)
  | releasing : InLoop .releasing []
  | finished : InLoop .finished []

theorem inLoop_loop (rows : List Row) : InLoop (.loop (rows.map .ofRow)) rows := by
  cases rows with
  | nil => exact .releasing
  | cons r rows => exact .sending r rows

/-- The candidates of a tick that started at `t₀` or later. -/
structure Candidates (T₀ : Table) (t₀ : Int) (ids : List Id) : Prop where
  selected : ∃ now order, t₀ ≤ now ∧ Selects T₀ now order ∧ ids.Perm (candidateIds order)

/-- Where tick `t` stands, and what it has made of the table it found at `t₀`. -/
inductive Stage (T₀ : Table) (t₀ : Int) (t : TickId) (s : Sys) : Prop
  | idle (hphase : s.phase t = .idle) (hlock : s.lockedAt t = none) (htable : s.table = T₀)
  /-- The lock was held by another. -/
  | skipped (hphase : s.phase t = .finished) (hlock : s.lockedAt t = none)
  | locked (hphase : s.phase t = .locked) (T : Int) (hlock : s.lockedAt t = some T)
      (hle : t₀ ≤ T) (htable : s.table = T₀)
  | claiming (now : Int) (ids : List Id) (raw : List Row)
      (hphase : s.phase t = .claiming now ids raw)
      (hcandidates : Candidates T₀ t₀ (raw.map Row.id ++ ids))
      (heffect : Effect T₀ s.table (raw.map Row.id) [])
      (hraw : ∀ r ∈ raw, s.table.get r.id = some r)
  | looping (done : List Id) (rows : List Row) (hphase : InLoop (s.phase t) rows)
      (hcandidates : Candidates T₀ t₀ (done ++ rows.map Row.id))
      (heffect : Effect T₀ s.table (rows.map Row.id) done)
      (hrows : ∀ r ∈ rows, s.table.get r.id = some r)

section Candidates

variable {T₀ : Table} {t₀ : Int} {ids : List Id}

theorem Selects.nodup {now : Int} {order : List Id} (h : Selects T₀ now order) :
    order.Nodup := by
  refine h.1.nodup_iff.mpr (T₀.nodup.sublist ?_)
  exact List.Sublist.map Row.id List.filter_sublist

theorem Candidates.nodup (h : Candidates T₀ t₀ ids) : ids.Nodup := by
  obtain ⟨now, order, -, hsel, hperm⟩ := h.selected
  exact hperm.nodup_iff.mpr (hsel.nodup.sublist (List.take_sublist _ _))

/-- A candidate's row was PENDING. -/
theorem Candidates.pending (h : Candidates T₀ t₀ ids) {i : Id} (hi : i ∈ ids) :
    ∃ r, T₀.get i = some r ∧ r.status = .pending := by
  obtain ⟨now, order, -, hsel, hperm⟩ := h.selected
  have hmem : i ∈ order := (List.take_sublist _ _).subset (hperm.mem_iff.mp hi)
  obtain ⟨r, hr, hdue⟩ := (mem_selects hsel).mp hmem
  exact ⟨r, hr, (of_decide_eq_true hdue).1⟩

theorem Candidates.perm (h : Candidates T₀ t₀ ids) {ids' : List Id} (hperm : ids'.Perm ids) :
    Candidates T₀ t₀ ids' := by
  obtain ⟨now, order, hnow, hsel, hperm'⟩ := h.selected
  exact ⟨now, order, hnow, hsel, hperm.trans hperm'⟩

end Candidates

/-! ### What a phase says of the stage -/

section Stage

variable {T₀ : Table} {t₀ : Int} {t : TickId} {s : Sys}

theorem Stage.of_idle (h : Stage T₀ t₀ t s) (hp : s.phase t = .idle) :
    s.lockedAt t = none ∧ s.table = T₀ := by
  cases h with
  | idle hphase hlock htable => exact ⟨hlock, htable⟩
  | skipped hphase => rw [hp] at hphase; cases hphase
  | locked hphase => rw [hp] at hphase; cases hphase
  | claiming now ids raw hphase => rw [hp] at hphase; cases hphase
  | looping done rows hphase => rw [hp] at hphase; cases hphase

theorem Stage.of_locked (h : Stage T₀ t₀ t s) (hp : s.phase t = .locked) :
    s.table = T₀ ∧ ∀ T, s.lockedAt t = some T → t₀ ≤ T := by
  cases h with
  | idle hphase => rw [hp] at hphase; cases hphase
  | skipped hphase => rw [hp] at hphase; cases hphase
  | locked hphase T hlock hle htable =>
    refine ⟨htable, fun T' hT' => ?_⟩
    obtain rfl := Option.some.inj (hlock.symm.trans hT')
    exact hle
  | claiming now ids raw hphase => rw [hp] at hphase; cases hphase
  | looping done rows hphase => rw [hp] at hphase; cases hphase

theorem Stage.of_claiming (h : Stage T₀ t₀ t s) {now : Int} {ids : List Id} {raw : List Row}
    (hp : s.phase t = .claiming now ids raw) :
    Candidates T₀ t₀ (raw.map Row.id ++ ids) ∧ Effect T₀ s.table (raw.map Row.id) [] ∧
      ∀ r ∈ raw, s.table.get r.id = some r := by
  cases h with
  | idle hphase => rw [hp] at hphase; cases hphase
  | skipped hphase => rw [hp] at hphase; cases hphase
  | locked hphase => rw [hp] at hphase; cases hphase
  | claiming now' ids' raw' hphase hcandidates heffect hraw =>
    rw [hp] at hphase
    obtain ⟨rfl, rfl, rfl⟩ := Phase.claiming.inj hphase
    exact ⟨hcandidates, heffect, hraw⟩
  | looping done rows hphase => rw [hp] at hphase; cases hphase

/-- In the loop or after it, unless the lock was held by another. -/
theorem Stage.of_loop (h : Stage T₀ t₀ t s) {p : Phase} (hp : s.phase t = p)
    (hloop : p ≠ .idle ∧ p ≠ .locked ∧ ∀ now ids raw, p ≠ .claiming now ids raw)
    (hfinished : p = .finished → s.lockedAt t ≠ none) :
    ∃ done rows, InLoop p rows ∧ Candidates T₀ t₀ (done ++ rows.map Row.id) ∧
      Effect T₀ s.table (rows.map Row.id) done ∧ ∀ r ∈ rows, s.table.get r.id = some r := by
  subst hp
  cases h with
  | idle hphase => exact absurd hphase hloop.1
  | skipped hphase hlock => exact absurd hlock (hfinished hphase)
  | locked hphase => exact absurd hphase hloop.2.1
  | claiming now ids raw hphase => exact absurd hphase (hloop.2.2 now ids raw)
  | looping done rows hphase hcandidates heffect hrows =>
    exact ⟨done, rows, hphase, hcandidates, heffect, hrows⟩

end Stage

/-! ### Steps and runs -/

section Steps

variable {T₀ : Table} {t₀ : Int} {t : TickId} {s s' : Sys} {newDate : String → Date}

theorem Stage.congr (h : Stage T₀ t₀ t s) (hphase : s'.phase t = s.phase t)
    (hlock : s'.lockedAt t = s.lockedAt t) (htable : s'.table = s.table) :
    Stage T₀ t₀ t s' := by
  cases h with
  | idle hp hl ht => exact .idle (hphase.trans hp) (hlock.trans hl) (htable.trans ht)
  | skipped hp hl => exact .skipped (hphase.trans hp) (hlock.trans hl)
  | locked hp T hl hle ht =>
    exact .locked (hphase.trans hp) T (hlock.trans hl) hle (htable.trans ht)
  | claiming now ids raw hp hcandidates heffect hraw =>
    rw [← htable] at heffect hraw
    exact .claiming now ids raw (hphase.trans hp) hcandidates heffect hraw
  | looping done rows hp hcandidates heffect hrows =>
    rw [← htable] at heffect hrows
    rw [← hphase] at hp
    exact .looping done rows hp hcandidates heffect hrows

/-- The UPDATE visits a candidate: its row is PENDING still. -/
theorem Stage.claimRow (h : Stage T₀ t₀ t s) {i : Id} {now : Int} {ids : List Id}
    {raw : List Row} (hp : s.phase t = .claiming now ids raw) (hi : i ∈ ids) {table : Table}
    {r' : Row} (hclaim : Messages.claimRow s.table i = some (table, r')) :
    Stage T₀ t₀ t { s.goto t (.claiming now (ids.erase i) (raw ++ [r'])) with table } := by
  obtain ⟨hcandidates, heffect, hraw⟩ := h.of_claiming hp
  obtain ⟨r, rfl, hclaimed⟩ := claimRow_spec hclaim
  -- a candidate is visited once
  have hnew : r.id ∉ raw.map Row.id := by
    intro hmem
    have hdisjoint := (List.nodup_append.mp hcandidates.nodup).2.2
    exact hdisjoint r.id hmem r.id hi rfl
  refine .claiming now (ids.erase r.id) (raw ++ [r']) (Function.update_self ..) ?_ ?_ ?_
  · refine hcandidates.perm ?_
    rw [List.map_append, List.map_singleton, hclaimed.id_eq, List.append_assoc,
      List.singleton_append]
    exact (List.perm_cons_erase hi).symm.append_left _
  · rw [List.map_append, List.map_singleton, hclaimed.id_eq]
    exact heffect.claim hclaimed hnew
  · intro q hq
    rcases List.mem_append.mp hq with hold | hq
    · have hne : q.id ≠ r.id := fun hsame => hnew (hsame ▸ List.mem_map_of_mem hold)
      exact (hclaimed.get_of_ne hne).trans (hraw q hold)
    · obtain rfl := List.mem_singleton.mp hq
      rw [hclaimed.id_eq]
      exact hclaimed.get_self

/-- So none is left out of the answer. -/
theorem Stage.not_missed (h : Stage T₀ t₀ t s) {i : Id} {now : Int} {ids : List Id}
    {raw : List Row} (hp : s.phase t = .claiming now ids raw) (hi : i ∈ ids) :
    Messages.claimRow s.table i ≠ none := by
  obtain ⟨hcandidates, heffect, -⟩ := h.of_claiming hp
  obtain ⟨r, hr, hpending⟩ := hcandidates.pending (List.mem_append_right _ hi)
  have hfree : i ∉ raw.map Row.id := by
    intro hmem
    exact (List.nodup_append.mp hcandidates.nodup).2.2 i hmem i hi rfl
  intro hnone
  exact claimRow_eq_none.mp hnone r ((heffect.other i hfree List.not_mem_nil).trans hr) hpending

/-- The save of the message at hand goes through and settles its row. -/
theorem Stage.saved (h : Stage T₀ t₀ t s) {m : ScheduledMessage} {site : SaveSite}
    {rest : List ScheduledMessage} (hp : s.phase t = .saving m site rest)
    (hstep : Messages.step (carrying newDate) s (.saved t) = some s') : Stage T₀ t₀ t s' := by
  obtain ⟨done, rows, hloop, hcandidates, heffect, hrows⟩ :=
    h.of_loop hp ⟨by simp, by simp, by simp⟩ (by simp)
  cases hloop with
  | saving r rows m site hm hgoes =>
    -- the table has the row as it was claimed
    have hr := hrows r List.mem_cons_self
    obtain ⟨r', hsave, hsettled⟩ := save_answered hm hr
    simp only [Messages.step, hp, hsave, Option.some.injEq, afterSave, hgoes, if_true] at hstep
    subst hstep
    have hnodup := (List.nodup_append.mp hcandidates.nodup).2.1
    have hnew : r.id ∉ rows.map Row.id := (List.nodup_cons.mp hnodup).1
    refine .looping (done ++ [r.id]) rows ?_ ?_ (heffect.settle hr hnew hsettled) ?_
    · rw [Sys.goto_phase, Function.update_self]
      exact inLoop_loop rows
    · rw [List.append_assoc, List.singleton_append]
      exact hcandidates
    · exact hsettled.others hnew fun q hq => hrows q (List.mem_cons_of_mem _ hq)

/-- **Step lemma.** -/
theorem Stage.step (h : Stage T₀ t₀ t s) (hnow : t₀ ≤ s.now) {e : Event} (hC : e.smooth t)
    (hstep : Messages.step (carrying newDate) s e = some s') : Stage T₀ t₀ t s' := by
  cases step_spec hstep with
  | elapse => exact h.congr rfl rfl rfl
  | acquire hp hk =>
    obtain rfl := hC
    obtain ⟨-, htable⟩ := h.of_idle hp
    exact .locked (Function.update_self ..) s.now (Function.update_self ..) hnow htable
  | acquireRefused hp hk =>
    obtain rfl := hC
    obtain ⟨hlock, -⟩ := h.of_idle hp
    exact .skipped (Function.update_self ..) hlock
  | @select u T now order hp hT hle hnow' hsel =>
    obtain rfl := hC
    obtain ⟨htable, hlocked⟩ := h.of_locked hp
    rw [htable] at hsel
    -- no row has been claimed yet
    refine .claiming now (candidateIds order) [] (Function.update_self ..) ?_ ?_ ?_
    · exact ⟨now, order, Int.le_trans (hlocked T hT) hle, hsel, .refl _⟩
    · rw [Sys.goto_table, htable]
      exact .refl T₀
    · exact fun r hr => absurd hr List.not_mem_nil
  | claimRow hp hi hclaim =>
    obtain rfl := hC
    exact h.claimRow hp hi hclaim
  | missRow hp hi hnone =>
    obtain rfl := hC
    exact absurd hnone (h.not_missed hp hi)
  | @claimed u now raw hp =>
    obtain rfl := hC
    obtain ⟨hcandidates, heffect, hraw⟩ := h.of_claiming hp
    rw [List.append_nil] at hcandidates
    refine .looping [] raw ?_ hcandidates heffect hraw
    rw [Sys.goto_phase, Function.update_self]
    exact inLoop_loop raw
  | send hp =>
    obtain rfl := hC
    obtain ⟨done, rows, hloop, hcandidates, heffect, hrows⟩ :=
      h.of_loop hp ⟨by simp, by simp, by simp⟩ (by simp)
    cases hloop with
    | sending r rows =>
      refine .looping done (r :: rows) ?_ hcandidates heffect hrows
      rw [Sys.goto_phase, Function.update_self]
      exact .calling r rows
  | ack hp =>
    obtain rfl := hC
    obtain ⟨done, rows, hloop, hcandidates, heffect, hrows⟩ :=
      h.of_loop hp ⟨by simp, by simp, by simp⟩ (by simp)
    cases hloop with
    | calling r rows =>
      refine .looping done (r :: rows) ?_ hcandidates heffect hrows
      rw [Sys.goto_phase, Function.update_self]
      exact .saving r rows _ _ (.inl rfl) rfl
  | sendError hp =>
    obtain ⟨rfl, thrown, rfl⟩ := hC
    obtain ⟨done, rows, hloop, hcandidates, heffect, hrows⟩ :=
      h.of_loop hp ⟨by simp, by simp, by simp⟩ (by simp)
    cases hloop with
    | calling r rows =>
      refine .looping done (r :: rows) ?_ hcandidates heffect hrows
      rw [Sys.goto_phase, Function.update_self]
      -- what the client throws can be logged, so the loop goes on
      exact .saving r rows _ _ (.inr ⟨_, rfl⟩) (by simp [SaveSite.goesOn, clientError_isNullish])
  | saved hp hsaved =>
    obtain rfl := hC
    exact h.saved hp hstep
  | release hp =>
    obtain rfl := hC
    obtain ⟨done, rows, hloop, hcandidates, heffect, hrows⟩ :=
      h.of_loop hp ⟨by simp, by simp, by simp⟩ (by simp)
    cases hloop with
    | releasing =>
      refine .looping done [] ?_ hcandidates heffect hrows
      rw [Sys.goto_phase, Function.update_self]
      exact .finished
  | _ => exact absurd hC id

theorem now_le_of_step {P : Platform} {e : Event} (hstep : Messages.step P s e = some s') :
    s.now ≤ s'.now := by
  cases step_spec hstep with
  | elapse => exact Int.le_add_of_nonneg_right (Int.natCast_nonneg _)
  | _ => exact Int.le_refl _

/-- Tick `t` runs from its start to its end with nothing else going on, and has
the lock. -/
structure FullTick (P : Platform) (t : TickId) (s s' : Sys) : Prop where
  idle : s.phase t = .idle
  unlocked : s.lockedAt t = none
  run : (machine P).Run (fun _ e => e.smooth t) s s'
  obtained : s'.lockedAt t ≠ none
  finished : s'.phase t = .finished

/-- **Run lemma.** It claims the first due rows of the table it finds, a hundred
at most, and settles each. -/
theorem tick_effect (h : FullTick (carrying newDate) t s s') :
    s.now ≤ s'.now ∧ ∃ ids, Candidates s.table s.now ids ∧ Effect s.table s'.table [] ids := by
  have hstage : s.now ≤ s'.now ∧ Stage s.table s.now t s' := by
    refine h.run.invariant (I := fun s₁ => s.now ≤ s₁.now ∧ Stage s.table s.now t s₁) ?_ ?_
    · intro s₁ e s₂ hs hC hstep
      exact ⟨Int.le_trans hs.1 (now_le_of_step hstep), hs.2.step hs.1 hC hstep⟩
    · exact ⟨Int.le_refl _, .idle h.idle h.unlocked rfl⟩
  refine ⟨hstage.1, ?_⟩
  obtain ⟨done, rows, hloop, hcandidates, heffect, -⟩ :=
    hstage.2.of_loop h.finished ⟨by simp, by simp, by simp⟩ (fun _ => h.obtained)
  cases hloop with
  | finished =>
    rw [List.map_nil, List.append_nil] at hcandidates
    exact ⟨done, hcandidates, heffect⟩

end Steps

/-! ### A tick ends -/

/-- The messaging service answers as `answer` says: `none` resolves the call, and
`some error` is what it throws. -/
def Event.answeredBy (answer : ScheduledMessage → Option Value) (s : Sys) : Event → Prop
  | .ack t => ∀ m rest, s.phase t = .calling m rest → answer m = none
  | .sendError t error => ∀ m rest, s.phase t = .calling m rest →
      ∃ thrown, answer m = some thrown ∧ error = clientError thrown
  | _ => True

/-- Tick `t` can go on to its end. -/
def Ends (P : Platform) (answer : ScheduledMessage → Option Value) (t : TickId) (s : Sys) :
    Prop :=
  ∃ s', (machine P).Run (fun s e => e.smooth t ∧ e.answeredBy answer s) s s' ∧
    s'.phase t = .finished ∧ s'.lockedAt t = s.lockedAt t

section Ends

variable {T₀ : Table} {t₀ : Int} {t : TickId} {s s' : Sys} {newDate : String → Date}
  {answer : ScheduledMessage → Option Value}

theorem Ends.of_step {P : Platform} {e : Event} (h : Ends P answer t s') (hC : e.smooth t)
    (hanswer : e.answeredBy answer s) (hstep : step P s e = some s')
    (hlock : s'.lockedAt t = s.lockedAt t) : Ends P answer t s := by
  obtain ⟨s'', hrun, hfinished, hlock'⟩ := h
  have hfirst : (machine P).Run (fun s e => e.smooth t ∧ e.answeredBy answer s) s s' :=
    .single ⟨hC, hanswer⟩ hstep
  exact ⟨s'', hfirst.trans hrun, hfinished, hlock'.trans hlock⟩

/-- The call in the loop is answered, one way or the other. -/
theorem exists_answer (P : Platform) (answer : ScheduledMessage → Option Value) {r : Row}
    {rest : List ScheduledMessage} (hp : s.phase t = .calling (.ofRow r) rest) :
    ∃ e m site, e.smooth t ∧ e.answeredBy answer s ∧ Answered m r ∧ site.goesOn = true ∧
      ∃ trace, step P s e = some { s.goto t (.saving m site rest) with trace } := by
  cases hanswer : answer (.ofRow r) with
  | none =>
    refine ⟨.ack t, onSent (.ofRow r), .afterSend, rfl, ?_, .inl rfl, rfl,
      _, by simp only [step, hp]; rfl⟩
    intro m rest' hp'
    obtain ⟨rfl, -⟩ := Phase.calling.inj (hp.symm.trans hp')
    exact hanswer
  | some thrown =>
    refine ⟨.sendError t (clientError thrown), onSendError (clientError thrown) (.ofRow r),
      .onError (clientError thrown), ⟨rfl, thrown, rfl⟩, ?_, .inr ⟨_, rfl⟩,
      by simp [SaveSite.goesOn, clientError_isNullish], s.trace, by simp only [step, hp]; rfl⟩
    intro m rest' hp'
    obtain ⟨rfl, -⟩ := Phase.calling.inj (hp.symm.trans hp')
    exact ⟨thrown, hanswer, rfl⟩

/-- By induction on the messages left. -/
theorem ends_of_loop {rows : List Row} (hp : s.phase t = .loop (rows.map .ofRow))
    (hrows : ∀ r ∈ rows, s.table.get r.id = some r) (hnodup : (rows.map Row.id).Nodup) :
    Ends (carrying newDate) answer t s := by
  induction rows generalizing s with
  | nil =>
    have hstep : step (carrying newDate) s (.release t true) = some { s.goto t .finished with
        lock := Lease.compareAndDelete s.now t.pod s.lock } := by
      simp only [step, hp, List.map_nil, Phase.loop, if_true]
    exact Ends.of_step (e := .release t true) ⟨_, .refl, Function.update_self .., rfl⟩ rfl
      trivial hstep rfl
  | cons r rows ih =>
    have hr := hrows r List.mem_cons_self
    -- the call
    have hsend : step (carrying newDate) s (.send t) =
        some { s.goto t (.calling (.ofRow r) (rows.map .ofRow)) with
          trace := .called (.val r.id) (sendRequest (.ofRow r)) s.now :: s.trace } := by
      simp only [step, hp, List.map_cons, Phase.loop]
      rfl
    refine Ends.of_step (e := .send t) ?_ rfl trivial hsend rfl
    -- its answer
    have hcalling : ({ s.goto t (.calling (.ofRow r) (rows.map .ofRow)) with
        trace := .called (.val r.id) (sendRequest (.ofRow r)) s.now :: s.trace } : Sys).phase t =
        .calling (.ofRow r) (rows.map .ofRow) := Function.update_self ..
    obtain ⟨e, m, site, hsmooth, hanswered, hm, hgoes, trace, hstep⟩ :=
      exists_answer (carrying newDate) answer hcalling
    refine Ends.of_step ?_ hsmooth hanswered hstep rfl
    -- the save
    obtain ⟨r', hsave, hsettled⟩ := save_answered hm hr
    obtain ⟨hnew, hnodup'⟩ := List.nodup_cons.mp hnodup
    have hrest : Ends (carrying newDate) answer t
        { s.goto t (.loop (rows.map .ofRow)) with table := s.table.put r', trace } := by
      refine ih ?_ ?_ hnodup'
      · exact Function.update_self ..
      · exact hsettled.others hnew fun q hq => hrows q (List.mem_cons_of_mem _ hq)
    refine Ends.of_step (e := .saved t) hrest rfl trivial ?_ rfl
    simp only [step, Sys.goto_phase, Function.update_self, Sys.goto_table, hsave, afterSave,
      hgoes, if_true]
    simp only [Sys.goto, Function.update_idem]

/-- By induction on the candidates that are still to be visited. -/
theorem ends_of_claiming {now : Int} {ids : List Id} {raw : List Row} (h : Stage T₀ t₀ t s)
    (hp : s.phase t = .claiming now ids raw) : Ends (carrying newDate) answer t s := by
  induction ids generalizing s raw with
  | nil =>
    obtain ⟨hcandidates, -, hraw⟩ := h.of_claiming hp
    rw [List.append_nil] at hcandidates
    have hstep : step (carrying newDate) s (.claimed t) =
        some (s.goto t (.loop (raw.map .ofRow))) := by
      simp only [step, hp]
      rfl
    refine Ends.of_step (e := .claimed t) ?_ rfl trivial hstep rfl
    exact ends_of_loop (Function.update_self ..) hraw hcandidates.nodup
  | cons i ids ih =>
    cases hclaim : Messages.claimRow s.table i with
    | none => exact absurd hclaim (h.not_missed hp List.mem_cons_self)
    | some answered =>
      obtain ⟨table, r⟩ := answered
      have hstage := h.claimRow hp List.mem_cons_self hclaim
      have hstep : step (carrying newDate) s (.claimRow t i) =
          some { s.goto t (.claiming now ((i :: ids).erase i) (raw ++ [r])) with table } := by
        simp only [step, hp, List.mem_cons_self, if_true, hclaim]
      refine Ends.of_step (e := .claimRow t i) (@ih _ (raw ++ [r]) hstage ?_) rfl trivial hstep rfl
      show Function.update s.phase t (.claiming now ((i :: ids).erase i) (raw ++ [r])) t = _
      rw [Function.update_self, List.erase_cons_head]

/-- The database can answer the candidate query. -/
theorem exists_selects (T : Table) (now : Int) : ∃ order, Selects T now order := by
  let earlier : Row → Row → Bool := fun a b => decide (a.scheduledAt ≤ b.scheduledAt)
  let sorted := (T.rows.filter (Row.due now)).mergeSort earlier
  have hperm : sorted.Perm (T.rows.filter (Row.due now)) := List.mergeSort_perm _ _
  refine ⟨sorted.map Row.id, hperm.map Row.id, ?_⟩
  -- the rows under the ids of rows of the table are those rows
  have hget : (sorted.map Row.id).filterMap T.get = sorted := by
    rw [List.filterMap_map]
    have hrows : ∀ r ∈ sorted, (T.get ∘ Row.id) r = some r := fun r hr =>
      Keyed.get_eq_some.mpr ⟨(List.mem_filter.mp (hperm.subset hr)).1, rfl⟩
    rw [List.filterMap_congr hrows, List.filterMap_some]
  rw [hget]
  have htrans : ∀ a b c : Row, earlier a b → earlier b c → earlier a c := fun a b c hab hbc =>
    decide_eq_true (Int.le_trans (of_decide_eq_true hab) (of_decide_eq_true hbc))
  have htotal : ∀ a b : Row, earlier a b || earlier b a := by
    intro a b
    simp only [earlier, Bool.or_eq_true, decide_eq_true_eq]
    exact Int.le_total a.scheduledAt b.scheduledAt
  have hsorted := List.pairwise_mergeSort htrans htotal (T.rows.filter (Row.due now))
  exact hsorted.imp of_decide_eq_true

/-- **A tick ends.** One that finds the lock free runs to its end, however its
sends come out. -/
theorem exists_fullTick (answer : ScheduledMessage → Option Value) {k : Lease.Key TickId Pod}
    (hidle : s.phase t = .idle) (hunlocked : s.lockedAt t = none)
    (hfree : Lease.setNX s.now LOCK_TTL_MS t.pod t s.lock = some k) :
    ∃ s', FullTick (carrying newDate) t s s' ∧
      (machine (carrying newDate)).Run (fun s e => e.smooth t ∧ e.answeredBy answer s) s s' := by
  -- it obtains the lock, selects at once, and goes on from there
  have hacquire : step (carrying newDate) s (.acquire t) = some { s.goto t .locked with
      lock := some k
      lockedAt := Function.update s.lockedAt t (some s.now) } := by
    simp only [step, hidle, hfree]
  have hstart : Stage s.table s.now t s := .idle hidle hunlocked rfl
  have hlocked := hstart.step (e := .acquire t) (Int.le_refl _) rfl hacquire
  obtain ⟨order, hsel⟩ := exists_selects s.table s.now
  generalize hs₁ : { s.goto t .locked with
    lock := some k
    lockedAt := Function.update s.lockedAt t (some s.now) : Sys } = s₁ at hacquire hlocked
  have hlockedAt : s₁.lockedAt t = some s.now := by
    rw [← hs₁]
    exact Function.update_self ..
  have hselect : step (carrying newDate) s₁ (.select t s.now order) =
      some (s₁.goto t (.claiming s.now (candidateIds order) [])) := by
    subst hs₁
    simp [step, hsel]
  have hclaiming := hlocked.step (e := .select t s.now order)
    (by rw [← hs₁]; exact Int.le_refl _) rfl hselect
  have hends : Ends (carrying newDate) answer t s₁ :=
    Ends.of_step (e := .select t s.now order)
      (ends_of_claiming hclaiming (Function.update_self ..)) rfl trivial hselect rfl
  obtain ⟨s', hrun, hfinished, hlock⟩ := hends
  have hwhole : (machine (carrying newDate)).Run
      (fun s e => e.smooth t ∧ e.answeredBy answer s) s s' :=
    (Machine.Run.single (e := .acquire t) ⟨rfl, trivial⟩ hacquire).trans hrun
  refine ⟨s', ⟨hidle, hunlocked, hwhole.mono fun _ _ h => h.1, ?_, hfinished⟩, hwhole⟩
  rw [hlock, hlockedAt]
  exact Option.some_ne_none _

end Ends

end SchedulingService.Messages
