import Mathlib.Data.Int.Order.Basic
import SchedulingService.Messages.Claiming
import SchedulingService.Messages.Handover
import SchedulingService.Messages.InFlight

/-!
# Never early

The candidate query checks the time, the UPDATE that follows it only the
status. So what a tick claims, and later sends, was due when it was selected;
an owner may have put it off since.

* `never_early` — nothing is claimed or sent early as long as no owner's save
  moves the time of a message past the ticks already at work on it;
* `postponed_message_is_claimed` is a run in which one does.
-/

namespace SchedulingService.Messages

open Js

variable {P : Platform} {s s' : Sys} {e : Event}

/-- The time the owner of `k` last set. -/
def lastTime (trace : List Obs) (k : MsgKey) : Option Int :=
  trace.findSome? fun
    | .created j edit => if j = k then edit.scheduledAt else none
    | .updated j edit => if j = k then edit.scheduledAt else none
    | _ => none

/-! ## The property -/

/-- A row is claimed only when it is due at the claiming tick's `now`, and a
message is sent only when the time its owner last set has come. -/
def NeverEarly (P : Platform) (C : Sys → Event → Prop) : Prop :=
  ∀ s e s', (machine P).Reachable C s → C s e → (machine P).step s e = some s' →
    (∀ i r r', s.table.get i = some r → r.status = .pending →
      s'.table.get i = some r' → r'.status = .processing →
      ∃ t now ids raw, e = .claimRow t i ∧ s.phase t = .claiming now ids raw ∧
        r.scheduledAt ≤ now) ∧
    ∀ t m rest, e = .send t → s.phase t = .sending m rest →
      ∀ T, lastTime s.trace m.id = some T → T ≤ s.now

/-- The time an owner's save writes is one that ticks with the message among
their candidates count as due, and, if the request set it, one that has come
for ticks about to send the message; otherwise it does not move the row's time
back. -/
def OwnerSavesOnTime (P : Platform) (s : Sys) : Event → Prop
  | .requestSaved q _ => ∀ change m i r X, s.request q = .saving change m →
      m.id = .val i → s.table.get i = some r →
      writeTimestamp r.scheduledAt m.scheduledAt = some X →
      (∀ t now ids raw, s.phase t = .claiming now ids raw → i ∈ ids → X ≤ now) ∧
      ((change.edit P).scheduledAt ≠ none → ∀ t, m.id ∈ (s.phase t).toSend → X ≤ s.now) ∧
      ((change.edit P).scheduledAt = none → r.scheduledAt ≤ X)
  | _ => True

/-! ## Times given and times stored -/

theorem lastTime_obs (change : Change) (key k : MsgKey) (trace : List Obs) :
    lastTime (change.obs P key :: trace) k =
      if key = k then (change.edit P).scheduledAt.or (lastTime trace k)
      else lastTime trace k := by
  cases change with
  | update dto =>
    by_cases hk : key = k
    · cases ht : (dto.edit P).scheduledAt <;>
        simp [lastTime, Change.obs, Change.edit, hk, ht]
    · simp [lastTime, Change.obs, hk]
  | cancel => simp [lastTime, Change.obs, Change.edit, Edit.empty]

/-- Only the save of a request changes what an owner last set. -/
theorem lastTime_quiet (hs : Step P s e s') (he : ∀ q fresh, e ≠ .requestSaved q fresh)
    (k : MsgKey) : lastTime s'.trace k = lastTime s.trace k := by
  cases hs with
  | inserted | requestSaved => exact absurd rfl (he _ _)
  | _ => rfl

/-! ## The invariant -/

/-- Candidates are still due, and what is to be sent may be sent. -/
structure OnTime (s : Sys) : Prop where
  past   : ∀ t now ids raw, s.phase t = .claiming now ids raw → now ≤ s.now
  due    : ∀ t now ids raw, s.phase t = .claiming now ids raw → ∀ i ∈ ids,
    ∃ r, s.table.get i = some r ∧ r.scheduledAt ≤ now
  known  : ∀ t, ∀ k ∈ (s.phase t).toSend, ∃ i r, k = .val i ∧ s.table.get i = some r
  silent : ∀ t, ∀ m ∈ (s.phase t).entities, m.scheduledAt = .undefined
  row    : ∀ i r T, s.table.get i = some r → lastTime s.trace (.val i) = some T →
    T ≤ r.scheduledAt ∨ T ≤ s.now
  sent   : ∀ t, ∀ k ∈ (s.phase t).toSend, ∀ T, lastTime s.trace k = some T → T ≤ s.now

variable {newDate : String → Date}

/-- A row's time is changed by an owner's save only: claimed entities carry none. -/
theorem scheduledAt_step (hI : OnTime s) {i : Id} {r r' : Row} (h : RowStep s i r e r') :
    r'.scheduledAt = r.scheduledAt ∨ ∃ q fresh change m, e = .requestSaved q fresh ∧
      s.request q = .saving change m ∧ m.id = .val i ∧
      writeTimestamp r.scheduledAt m.scheduledAt = some r'.scheduledAt := by
  cases h with
  | same | claim => exact .inl rfl
  | @tick t m site rest r' hph hm hover =>
    left
    have hsilent : m.scheduledAt = .undefined :=
      hI.silent t m (by rw [hph]; exact List.mem_cons_self)
    have := hover.scheduledAt
    rw [hsilent, writeTimestamp, Option.some.injEq] at this
    exact this.symm
  | @owner q fresh change m r' hreq hm hover =>
    exact .inr ⟨q, fresh, change, m, rfl, hreq, hm, hover.scheduledAt⟩

theorem now_step (hs : Step P s e s') : s.now ≤ s'.now := by
  cases hs with
  | elapse => exact Int.le_add_of_nonneg_right (Int.natCast_nonneg _)
  | _ => exact Int.le_refl _

/-- Candidates stay due: an owner's save may not put them off. -/
theorem due_step (hI : OnTime s) (hC : OwnerSavesOnTime P s e) (hs : Step P s e s')
    {t : TickId} {now : Int} {ids : List Id} {raw : List Row}
    (hph : s.phase t = .claiming now ids raw) {i : Id} (hi : i ∈ ids) :
    ∃ r, s'.table.get i = some r ∧ r.scheduledAt ≤ now := by
  obtain ⟨r, hr, hdue⟩ := hI.due t now ids raw hph i hi
  obtain ⟨r', hr', hrow⟩ := row_step hs hr
  refine ⟨r', hr', ?_⟩
  rcases scheduledAt_step hI hrow with h | ⟨q, fresh, change, m, rfl, hreq, hm, hX⟩
  · rwa [h]
  · exact (hC change m i r _ hreq hm hr hX).1 t now ids raw hph hi

/-- A row's time is the one last set or later, or the one last set has come. -/
theorem row_time_step (hI : OnTime s) (hwf : Wf P s) (hC : OwnerSavesOnTime P s e)
    (hs : Step P s e s') {i : Id} {r' : Row} {T : Int} (hr' : s'.table.get i = some r')
    (hT : lastTime s'.trace (.val i) = some T) : T ≤ r'.scheduledAt ∨ T ≤ s'.now := by
  rcases requestSaved_or_quiet e with ⟨q, fresh, rfl⟩ | he
  · cases hs with
    | @inserted q fresh m table row hreq hins =>
      have hget : some r' = if i = row.id then some row else s.table.get i :=
        hr'.symm.trans (hins.after i)
      by_cases hi : i = row.id
      · rw [if_pos hi] at hget
        obtain rfl := Option.some.inj hget
        subst hi
        simp only [lastTime, List.findSome?_cons, Row.edit, if_true, Option.some.injEq] at hT
        exact .inl (le_of_eq hT.symm)
      · rw [if_neg hi] at hget
        have hi' : row.id ≠ i := fun h => hi h.symm
        simp only [lastTime, List.findSome?_cons, Slot.val.injEq, if_neg hi'] at hT
        exact hI.row i r' T hget.symm hT
    | @requestSaved q fresh change m table row row' hreq hsaved =>
      rw [lastTime_obs, hsaved.key] at hT
      by_cases hi : i = row.id
      · subst hi
        have hget : table.get row.id = some r' := hr'
        obtain rfl := Option.some.inj (hsaved.get_self.symm.trans hget)
        rw [if_pos rfl] at hT
        -- a request that gives a time stores that time
        have hgiven := (hwf.changing q change m hreq).has hsaved.toOverwritten
        cases htime : (change.edit P).scheduledAt with
        | some X =>
          rw [htime, Option.some_or, Option.some.injEq] at hT
          exact .inl (le_of_eq (hT ▸ (hgiven.scheduledAt X htime).symm))
        | none =>
          rw [htime, Option.none_or] at hT
          -- by the condition, one that gives none does not move it back
          have hmono : row.scheduledAt ≤ row'.scheduledAt :=
            (hC change m _ row _ hreq hsaved.key hsaved.before hsaved.scheduledAt).2.2 htime
          exact (hI.row row.id row T hsaved.before hT).imp (fun h => h.trans hmono) id
      · have hget : table.get i = some r' := hr'
        rw [hsaved.get_of_ne hi] at hget
        have hi' : row.id ≠ i := fun h => hi h.symm
        rw [if_neg (by simpa using hi')] at hT
        exact hI.row i r' T hget hT
  · obtain ⟨r, hr, hrow⟩ := row_quiet hs he hr'
    rw [lastTime_quiet hs he] at hT
    have hsame : r'.scheduledAt = r.scheduledAt := by
      rcases scheduledAt_step hI hrow with h | ⟨q, fresh, -, -, h, -⟩
      · exact h
      · exact absurd h (he q fresh)
    rw [hsame]
    exact (hI.row i r T hr hT).imp id fun h => h.trans (now_step hs)

/-- What was to be sent in time still is. -/
theorem sent_step (hI : OnTime s) (hwf : Wf P s) (hC : OwnerSavesOnTime P s e)
    (hs : Step P s e s') {t : TickId} {k : MsgKey} (hk : k ∈ (s.phase t).toSend) {T : Int}
    (hT : lastTime s'.trace k = some T) : T ≤ s'.now := by
  rcases requestSaved_or_quiet e with ⟨q, fresh, rfl⟩ | he
  · cases hs with
    | @inserted q fresh m table row hreq hins =>
      -- a message to be sent has a row, so it is not the new one
      obtain ⟨i, r, rfl, hr⟩ := hI.known t k hk
      have hi : row.id ≠ i := by
        rintro rfl
        rw [hins.fresh] at hr
        exact absurd hr (by simp)
      simp only [lastTime, List.findSome?_cons, Slot.val.injEq, if_neg hi] at hT
      exact hI.sent t _ hk T hT
    | @requestSaved q fresh change m table row row' hreq hsaved =>
      rw [lastTime_obs] at hT
      split at hT
      · rename_i hm
        have hgiven := (hwf.changing q change m hreq).has hsaved.toOverwritten
        cases htime : (change.edit P).scheduledAt with
        | some X =>
          rw [htime, Option.some_or, Option.some.injEq] at hT
          rw [← hT, ← hgiven.scheduledAt X htime]
          exact (hC change m _ row _ hreq hsaved.key hsaved.before hsaved.scheduledAt).2.1
            (by simp [htime]) t (hm ▸ hk)
        | none =>
          rw [htime, Option.none_or] at hT
          exact hI.sent t k hk T hT
      · exact hI.sent t k hk T hT
  · rw [lastTime_quiet hs he] at hT
    exact (hI.sent t k hk T hT).trans (now_step hs)

theorem onTime_step {s s' : Sys} (hI : OnTime s) (hwf : Wf (typeorm newDate) s)
    (hC : OwnerSavesOnTime (typeorm newDate) s e) (hs : Step (typeorm newDate) s e s') :
    OnTime s' where
  past t now ids raw hph := by
    rcases ids_step hs hph with ⟨ids', raw', hph', -⟩ | ⟨order, -, hnow, -, -⟩
    · exact (hI.past t now ids' raw' hph').trans (now_step hs)
    · exact hnow.trans (now_step hs)
  due t now ids raw hph i hi := by
    rcases ids_step hs hph with ⟨ids', raw', hph', hsub⟩ | ⟨order, rfl, -, hsel, rfl⟩
    · exact due_step hI hC hs hph' (hsub hi)
    · obtain ⟨r, hr, hdue⟩ := (mem_selects hsel).mp (List.mem_of_mem_take hi)
      obtain ⟨r', hr', hrow⟩ := row_step hs hr
      cases hrow with
      | same => exact ⟨r, hr', (of_decide_eq_true hdue).2⟩
  known t k hk := by
    have hold : ∃ i r, k = .val i ∧ s.table.get i = some r := by
      rcases toSend_step hs hk with h | ⟨i, now, ids, raw, rfl, -, hph, hi⟩
      · exact hI.known t k h
      · obtain ⟨r, hr, -⟩ := hI.due t now ids raw hph i hi
        exact ⟨i, r, rfl, hr⟩
    obtain ⟨i, r, rfl, hr⟩ := hold
    obtain ⟨r', hr', -⟩ := row_step hs hr
    exact ⟨i, r', rfl, hr'⟩
  silent t m hm := by
    rcases entities_step hs hm with ⟨m', hm', hsame⟩ | ⟨now, raw, r, -, -, rfl⟩
    -- entities come from claimed rows, and those lose their time
    · rw [hsame.scheduledAt]
      exact hI.silent t m' hm'
    · exact congrArg ScheduledMessage.scheduledAt (repositoryCreate_returningAll r)
  row i r' T hr' hT := row_time_step hI hwf hC hs hr' hT
  sent t k hk T hT := by
    rcases toSend_step hs hk with h | ⟨i, now, ids, raw, rfl, rfl, hph, hi⟩
    · exact sent_step hI hwf hC hs h hT
    · -- just claimed: it was due, and `now` is past
      obtain ⟨r, hr, hdue⟩ := hI.due t now ids raw hph i hi
      rw [lastTime_quiet hs (by simp)] at hT
      have hnow := (hI.past t now ids raw hph).trans (now_step hs)
      rcases hI.row i r T hr hT with h | h
      · exact h.trans (hdue.trans hnow)
      · exact h.trans (now_step hs)

theorem onTime_init {s : Sys} (h : Init s) : OnTime s := by
  obtain ⟨-, hphase, -, -, htrace⟩ := h
  refine ⟨fun t _ _ _ ht => ?_, fun t _ _ _ ht => ?_, fun t k hk => ?_, fun t m hm => ?_,
    fun i r T hr hT => ?_, fun t k hk => ?_⟩
  · simp [hphase t] at ht
  · simp [hphase t] at ht
  · simp [hphase t, Phase.toSend] at hk
  · simp [hphase t, Phase.entities] at hm
  · rw [htrace] at hT
    obtain ⟨o, ho, hfound⟩ := List.exists_of_findSome?_eq_some hT
    obtain ⟨q, hq, rfl⟩ := List.mem_map.mp ho
    obtain ⟨hr', hkey⟩ := Keyed.get_eq_some.mp hr
    simp only [Row.edit, Option.ite_none_right_eq_some, Slot.val.injEq,
      Option.some.injEq] at hfound
    -- initially the time last set is the row's own
    obtain rfl := s.table.eq_of_key_eq hq hr' (hfound.1.trans hkey.symm)
    exact .inl (le_of_eq hfound.2.symm)
  · simp [hphase t, Phase.toSend] at hk

theorem onTime_of_reachable {s : Sys}
    (h : (machine (typeorm newDate)).Reachable (OwnerSavesOnTime (typeorm newDate)) s) :
    Wf (typeorm newDate) s ∧ OnTime s :=
  h.invariant (I := fun s => Wf (typeorm newDate) s ∧ OnTime s)
    (fun _ h₀ => ⟨wf_init h₀, onTime_init h₀⟩)
    fun _ _ _ hI hC hs => ⟨wf_step hI.1 (step_spec hs),
      onTime_step hI.2 hI.1 hC (step_spec hs)⟩

/-- **Never early.** In every run in which no owner's save moves a message's time
past the ticks already at work on it. -/
theorem never_early (newDate : String → Date) :
    NeverEarly (typeorm newDate) (OwnerSavesOnTime (typeorm newDate)) := by
  intro s e s' h hC hstep
  obtain ⟨hwf, hI⟩ := onTime_of_reachable h
  have hs : Step (typeorm newDate) s e s' := step_spec hstep
  refine ⟨fun i r r' hr hst hr' hst' => ?_, fun t m rest he hph T hT => ?_⟩
  · obtain ⟨t, rfl, -⟩ := taken_by_claim hwf hs hr (by simp [hst]) hr' hst'
    have hclaiming : ∃ now ids raw, s.phase t = .claiming now ids raw ∧ i ∈ ids := by
      cases hs with
      | claimRow hph hi | missRow hph hi => exact ⟨_, _, _, hph, hi⟩
    obtain ⟨now, ids, raw, hph, hi⟩ := hclaiming
    obtain ⟨q, hq, hdue⟩ := hI.due t now ids raw hph i hi
    obtain rfl := Option.some.inj (hq.symm.trans hr)
    exact ⟨t, now, ids, raw, rfl, hph, hdue⟩
  · exact hI.sent t m.id (by rw [hph]; exact List.mem_cons_self) T hT

/-! ## The run that breaks it -/

/-- Between a tick's SELECT and its UPDATE the owner puts the message off by an
hour; the tick claims it nevertheless. -/
theorem postponed_message_is_claimed :
    ¬ NeverEarly (typeorm fun _ => .ms 3660000) Machine.always := by
  intro h
  have hrun : ((machine (typeorm fun _ => .ms 3660000)).exec (Sys.start 60000 dueTable)
      [.find 0 "msg-1" (.val "u") (.update ⟨.undefined, .undefined, .val "in an hour"⟩),
        .check 0, .acquire ⟨"pod", 0⟩, .select ⟨"pod", 0⟩ 60000 ["msg-1"],
        .requestSaved 0 ""]).map (fun s =>
      decide ((s.phase ⟨"pod", 0⟩).selectedAt = some 60000) &&
      ((s.table.get "msg-1").any fun r => r.status = .pending ∧ r.scheduledAt = 3660000) &&
        ((machine (typeorm fun _ => .ms 3660000)).step s
          (.claimRow ⟨"pod", 0⟩ "msg-1")).any fun s' =>
            (s'.table.get "msg-1").any fun r => r.status = .processing) = some true := by
    decide
  obtain ⟨s, hs, hp⟩ := Machine.Reachable.of_exec (C := Machine.always)
    (init_start 60000 (show ∀ r ∈ dueTable.rows, _ by decide)) (fun _ _ _ => trivial) hrun
  simp only [Bool.and_eq_true, Option.any_eq_true, decide_eq_true_eq] at hp
  obtain ⟨⟨hph, r, hr, hst, hX⟩, s', hs', r', hr', hst'⟩ := hp
  obtain ⟨t, now, ids, raw, he, hph', hle⟩ :=
    (h s _ s' hs trivial hs').1 "msg-1" r r' hr hst hr' hst'
  obtain ⟨rfl, -⟩ := Event.claimRow.inj he
  rw [hph'] at hph
  rw [hX] at hle
  have hnow : now = 60000 := Option.some.inj hph
  omega

end SchedulingService.Messages
