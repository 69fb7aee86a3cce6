import SchedulingService.Messages.Claiming
import SchedulingService.Messages.Handover
import SchedulingService.Messages.InFlight

/-!
# Acknowledged edits

An update that has resolved should be what the row holds and what is sent,
until another update of the same field replaces it. The whole loaded entity is
saved, and a tick sends the copy its UPDATE returned, so an edit is lost when
the save writes back a field that another request has changed meanwhile, or
comes while a tick already has its copy.

* `no_edit_lost` — as long as neither happens, and no message whose time was
  edited is sent, for the time is lost on the way to the client;
* `overlapping_updates_lose_one` is a run in which two updates of different
  fields overlap.
-/

namespace SchedulingService.Messages

open Js

variable {P : Platform} {s s' : Sys} {e : Event}

/-! ## Edits -/

/-- A field as last given: by `e`, or else before. -/
def Edit.over (e old : Edit) : Edit where
  content := e.content.or old.content
  metadata := e.metadata.or old.metadata
  scheduledAt := e.scheduledAt.or old.scheduledAt

/-- What the updates of `k` that resolved have given last, field by field. -/
def lastEdit (k : MsgKey) : List Obs → Edit
  | [] => .empty
  | .updated j edit :: trace => if j = k then edit.over (lastEdit k trace) else lastEdit k trace
  | _ :: trace => lastEdit k trace

/-- The request sent has every field the edit gives. -/
structure SendScheduledMessageRequest.Has (q : SendScheduledMessageRequest) (e : Edit) :
    Prop where
  content     : ∀ v, e.content = some v → q.content = .val v
  metadata    : ∀ v, e.metadata = some v → q.metadata = metadataOrEmpty v
  scheduledAt : ∀ v, e.scheduledAt = some v → q.scheduledFor = .val (.ms v)

/-- Every field an update gave is in the row, and in what is sent, until another
update gives that field. -/
def NoEditLost (P : Platform) (C : Sys → Event → Prop) : Prop :=
  ∀ s, (machine P).Reachable C s →
    (∀ i r, s.table.get i = some r → r.Has (lastEdit (.val i) s.trace)) ∧
    ∀ t m rest, s.phase t = .sending m rest → C s (.send t) →
      (sendRequest m).Has (lastEdit m.id s.trace)

/-- Saving `m` over `r` changes no field that `e` does not give. -/
structure WritesOnly (e : Edit) (m : ScheduledMessage) (r : Row) : Prop where
  content     : e.content = none → writeColumn r.content m.content = some r.content
  metadata    : e.metadata = none → writeNullable r.metadata m.metadata = r.metadata
  scheduledAt : e.scheduledAt = none →
    writeTimestamp r.scheduledAt m.scheduledAt = some r.scheduledAt

/-- The entity has every field the edit gives. -/
structure ScheduledMessage.Carries (m : ScheduledMessage) (e : Edit) : Prop where
  content     : e.content ≠ none → m.content ≠ .undefined
  metadata    : e.metadata ≠ none → m.metadata ≠ .undefined
  scheduledAt : e.scheduledAt ≠ none → m.scheduledAt ≠ .undefined

/-- An owner's save that gives a field finds no tick holding the message and
writes back no field that has changed since it was read; and no message is sent
whose time was edited, as a claimed entity has lost its time. -/
def EditsUndisturbed (P : Platform) (s : Sys) : Event → Prop
  | .requestSaved q _ => ∀ change m, s.request q = .saving change m →
      (change.edit P ≠ .empty → ∀ t, ¬ s.Holds t m.id) ∧
      ∀ i r, m.id = .val i → s.table.get i = some r → WritesOnly (change.edit P) m r
  | .send t => ∀ m rest, s.phase t = .sending m rest →
      (lastEdit m.id s.trace).scheduledAt = none
  | _ => True

/-! ## Fields of a row -/

/-- The fields an owner may edit are the same. -/
structure SameFields (q r : Row) : Prop where
  content     : q.content = r.content
  metadata    : q.metadata = r.metadata
  scheduledAt : q.scheduledAt = r.scheduledAt

theorem SameFields.refl (r : Row) : SameFields r r := ⟨rfl, rfl, rfl⟩

theorem SameFields.has {q r : Row} (h : SameFields q r) {edit : Edit} (hr : q.Has edit) :
    r.Has edit :=
  ⟨fun v hv => h.content ▸ hr.content v hv, fun v hv => h.metadata ▸ hr.metadata v hv,
    fun v hv => h.scheduledAt ▸ hr.scheduledAt v hv⟩

theorem SameFields.trans {p q r : Row} (h : SameFields p q) (h' : SameFields q r) :
    SameFields p r :=
  ⟨h.content.trans h'.content, h.metadata.trans h'.metadata, h.scheduledAt.trans h'.scheduledAt⟩

/-- An entity that carries at most the row saves nothing new. -/
theorem Overwritten.sameFields {m : ScheduledMessage} {r r' : Row} (h : Overwritten m r r')
    (hm : m.CarriesAtMost r) : SameFields r r' := by
  refine ⟨?_, ?_, ?_⟩
  · have := h.content
    rcases hm.content with hc | hc <;> rw [hc] at this <;> exact Option.some.inj this
  · have := h.metadata
    rcases hm.metadata with hc | hc <;> rw [hc] at this
    · exact this
    · cases hmeta : r.metadata <;> simpa [hmeta, Slot.ofNullable, writeNullable] using this
  · have := h.scheduledAt
    rcases hm.scheduledAt with hc | hc <;> rw [hc] at this <;> exact Option.some.inj this

/-! ## Edits and the trace -/

theorem Edit.empty_over (e : Edit) : Edit.empty.over e = e := rfl

theorem lastEdit_obs (change : Change) (key k : MsgKey) (trace : List Obs) :
    lastEdit k (change.obs P key :: trace) =
      if key = k then (change.edit P).over (lastEdit k trace) else lastEdit k trace := by
  cases change with
  | update dto => rfl
  | cancel => rw [Change.edit, Edit.empty_over, ite_self]; rfl

/-- Only the save of an update changes what was edited last. -/
theorem lastEdit_quiet (hs : Step P s e s') (he : ∀ q fresh, e ≠ .requestSaved q fresh)
    (k : MsgKey) : lastEdit k s'.trace = lastEdit k s.trace := by
  cases hs with
  | inserted | requestSaved => exact absurd rfl (he _ _)
  | _ => rfl

/-- A row that has what was given, and kept the rest, has the edits. -/
theorem Row.Has.over {r r' : Row} {edit old : Edit} (h : r'.Has edit)
    (hc : edit.content = none → r'.content = r.content)
    (hm : edit.metadata = none → r'.metadata = r.metadata)
    (ht : edit.scheduledAt = none → r'.scheduledAt = r.scheduledAt) (hr : r.Has old) :
    r'.Has (edit.over old) := by
  refine ⟨fun v hv => ?_, fun v hv => ?_, fun v hv => ?_⟩
  · cases hg : edit.content with
    | some w =>
      have hwv : w = v := by simpa [Edit.over, hg] using hv
      exact hwv ▸ h.content w hg
    | none => exact (hc hg).trans (hr.content v (by simpa [Edit.over, hg] using hv))
  · cases hg : edit.metadata with
    | some w =>
      have hwv : w = v := by simpa [Edit.over, hg] using hv
      exact hwv ▸ h.metadata w hg
    | none => exact (hm hg).trans (hr.metadata v (by simpa [Edit.over, hg] using hv))
  · cases hg : edit.scheduledAt with
    | some w =>
      have hwv : w = v := by simpa [Edit.over, hg] using hv
      exact hwv ▸ h.scheduledAt w hg
    | none => exact (ht hg).trans (hr.scheduledAt v (by simpa [Edit.over, hg] using hv))

/-- A save that writes back what it does not give keeps the rest. -/
theorem WritesOnly.keeps {edit : Edit} {m : ScheduledMessage} {r r' : Row}
    (hw : WritesOnly edit m r) (h : Overwritten m r r') :
    (edit.content = none → r'.content = r.content) ∧
    (edit.metadata = none → r'.metadata = r.metadata) ∧
    (edit.scheduledAt = none → r'.scheduledAt = r.scheduledAt) :=
  ⟨fun hn => Option.some.inj (h.content.symm.trans (hw.content hn)),
    fun hn => h.metadata.symm.trans (hw.metadata hn),
    fun hn => Option.some.inj (h.scheduledAt.symm.trans (hw.scheduledAt hn))⟩

/-! ## The invariant -/

/-- The table has the edits, and the copies ticks work with are those of the
table. -/
structure EditsKept (s : Sys) : Prop where
  row    : ∀ i r, s.table.get i = some r → r.Has (lastEdit (.val i) s.trace)
  fresh  : ∀ i, s.table.get i = none → lastEdit (.val i) s.trace = .empty
  raw    : ∀ t now ids raw, s.phase t = .claiming now ids raw → ∀ q ∈ raw,
    ∃ r, s.table.get q.id = some r ∧ SameFields q r
  entity : ∀ t, ∀ m ∈ (s.phase t).entities,
    ∃ i r, m.id = .val i ∧ s.table.get i = some r ∧ m.CarriesAtMost r

/-- A step changes the fields of a row only by a save that gives one, and then
no tick holds the message. -/
theorem fields_step (hI : EditsKept s) (hC : EditsUndisturbed P s e) {i : Id} {r r' : Row}
    (hr : s.table.get i = some r) (h : RowStep s i r e r') :
    SameFields r r' ∨ ∃ q fresh, e = .requestSaved q fresh ∧ ∀ t, ¬ s.Holds t (.val i) := by
  cases h with
  | same => exact .inl (.refl r)
  | claim => exact .inl ⟨rfl, rfl, rfl⟩
  | @tick t m site rest r' hph hm hover =>
    left
    -- the tick writes back what it read, so nothing changes
    obtain ⟨j, q, hj, hq, hcarries⟩ := hI.entity t m (by rw [hph]; exact List.mem_cons_self)
    obtain rfl := Slot.val.inj (hm.symm.trans hj)
    obtain rfl := Option.some.inj (hr.symm.trans hq)
    exact hover.sameFields hcarries
  | @owner q fresh change m r' hreq hm hover =>
    obtain ⟨hfree, hw⟩ := hC change m hreq
    -- a cancel, or an update without a body, writes the fields back
    by_cases hgives : change.edit P = .empty
    · left
      obtain ⟨hc, hmeta, ht⟩ := (hw i r hm hr).keeps hover
      rw [hgives] at hc hmeta ht
      exact ⟨(hc rfl).symm, (hmeta rfl).symm, (ht rfl).symm⟩
    · exact .inr ⟨q, fresh, rfl, fun t => hm ▸ hfree hgives t⟩

/-- The row of a held message keeps its fields. -/
theorem held_fields_step (hI : EditsKept s) (hC : EditsUndisturbed P s e)
    (hs : Step P s e s') {t : TickId} {i : Id} (ht : s.Holds t (.val i)) {r : Row}
    (hr : s.table.get i = some r) : ∃ r', s'.table.get i = some r' ∧ SameFields r r' := by
  obtain ⟨r', hr', hrow⟩ := row_step hs hr
  rcases fields_step hI hC hr hrow with h | ⟨-, -, -, hfree⟩
  · exact ⟨r', hr', h⟩
  · exact absurd ht (hfree t)

theorem row_has_step (hI : EditsKept s) (hwf : Wf P s) (hC : EditsUndisturbed P s e)
    (hs : Step P s e s') {i : Id} {r' : Row} (hr' : s'.table.get i = some r') :
    r'.Has (lastEdit (.val i) s'.trace) := by
  rcases requestSaved_or_quiet e with ⟨q, fresh, rfl⟩ | he
  · cases hs with
    | @inserted q fresh m table row hreq hins =>
      have hget : some r' = if i = row.id then some row else s.table.get i :=
        hr'.symm.trans (hins.after i)
      show r'.Has (lastEdit (.val i) s.trace)
      by_cases hi : i = row.id
      -- nothing was given before the row was there
      · rw [hi, hI.fresh row.id hins.fresh]
        exact r'.has_empty
      · rw [if_neg hi] at hget
        exact hI.row i r' hget.symm
    | @requestSaved q fresh change m table row row' hreq hsaved =>
      have hget : table.get i = some r' := hr'
      rw [lastEdit_obs, hsaved.key]
      by_cases hi : i = row.id
      · subst hi
        obtain rfl := Option.some.inj (hsaved.get_self.symm.trans hget)
        obtain ⟨hc, hmeta, ht⟩ :=
          ((hC change m hreq).2 _ row hsaved.key hsaved.before).keeps hsaved.toOverwritten
        rw [if_pos rfl]
        exact ((hwf.changing q change m hreq).has hsaved.toOverwritten).over hc hmeta ht
          (hI.row row.id row hsaved.before)
      · rw [hsaved.get_of_ne hi] at hget
        have hi' : row.id ≠ i := fun h => hi h.symm
        rw [if_neg (by simpa using hi')]
        exact hI.row i r' hget
  · obtain ⟨r, hr, hrow⟩ := row_quiet hs he hr'
    rw [lastEdit_quiet hs he]
    rcases fields_step hI hC hr hrow with h | ⟨q, fresh, h, -⟩
    · exact h.has (hI.row i r hr)
    · exact absurd h (he q fresh)

theorem fresh_step (hI : EditsKept s) (hs : Step P s e s') {i : Id}
    (hr' : s'.table.get i = none) : lastEdit (.val i) s'.trace = .empty := by
  have hr : s.table.get i = none := by
    cases hr : s.table.get i with
    | none => rfl
    | some r =>
      obtain ⟨r', h, -⟩ := row_step hs hr
      rw [h] at hr'
      exact absurd hr' (by simp)
  cases hs with
  | @requestSaved q fresh change m table row row' hreq hsaved =>
    have hi : row.id ≠ i := by
      rintro rfl
      rw [hsaved.before] at hr
      exact absurd hr (by simp)
    rw [lastEdit_obs, hsaved.key, if_neg (by simpa using hi)]
    exact hI.fresh i hr
  | _ => exact hI.fresh i hr

theorem SameFields.carries {m : ScheduledMessage} {r r' : Row} (h : SameFields r r')
    (hm : m.CarriesAtMost r) : m.CarriesAtMost r' :=
  ⟨h.content ▸ hm.content, h.metadata ▸ hm.metadata, h.scheduledAt ▸ hm.scheduledAt⟩

theorem SamePayload.carries {m m' : ScheduledMessage} (h : SamePayload m m') {r : Row}
    (hm : m'.CarriesAtMost r) : m.CarriesAtMost r :=
  ⟨h.content ▸ hm.content, h.metadata ▸ hm.metadata, h.scheduledAt ▸ hm.scheduledAt⟩

theorem editsKept_step (hI : EditsKept s) (hwf : Wf P s) (hC : EditsUndisturbed P s e)
    (hs : Step P s e s') : EditsKept s' where
  row i r' hr' := row_has_step hI hwf hC hs hr'
  fresh i hr' := fresh_step hI hs hr'
  raw t now ids raw hph q hq := by
    rcases raw_step hs hph hq with ⟨now', ids', raw', hph', hq'⟩ | ⟨r, hr, hr', rfl⟩
    · obtain ⟨r, hr, hsame⟩ := hI.raw t now' ids' raw' hph' q hq'
      obtain ⟨r', hr', hsame'⟩ := held_fields_step hI hC hs (held_of_raw hph' hq') hr
      exact ⟨r', hr', hsame.trans hsame'⟩
    · exact ⟨_, hr', .refl _⟩
  entity t m hm := by
    rcases entities_step hs hm with ⟨m', hm', hsame⟩ | ⟨now, raw, q, hph, hq, rfl⟩
    · obtain ⟨i, r, hi, hr, hcarries⟩ := hI.entity t m' hm'
      obtain ⟨r', hr', hfields⟩ :=
        held_fields_step hI hC hs (hi ▸ held_of_entity hm') hr
      exact ⟨i, r', hsame.id.trans hi, hr', hfields.carries (hsame.carries hcarries)⟩
    -- an entity just made carries its row, and the row has not changed since
    · obtain ⟨r, hr, hfields⟩ := hI.raw t now [] raw hph q hq
      obtain ⟨r', hr', hfields'⟩ := held_fields_step hI hC hs (held_of_raw hph hq) hr
      exact ⟨q.id, r', P.materialize_id q, hr',
        (hfields.trans hfields').carries (P.materialize_carries q)⟩

theorem editsKept_init (h : Init s) : EditsKept s := by
  obtain ⟨-, hphase, -, -, htrace⟩ := h
  have hnone : ∀ (k : MsgKey) (rows : List Row),
      lastEdit k (rows.map fun r => .created (.val r.id) r.edit) = .empty := by
    intro k rows
    induction rows with
    | nil => rfl
    | cons r rows ih => exact ih
  refine ⟨fun i r _ => ?_, fun i _ => ?_, fun t _ _ _ ht => ?_, fun t m hm => ?_⟩
  · rw [htrace, hnone]
    exact r.has_empty
  · rw [htrace, hnone]
  · simp [hphase t] at ht
  · simp [hphase t, Phase.entities] at hm

theorem editsKept_of_reachable (h : (machine P).Reachable (EditsUndisturbed P) s) :
    Wf P s ∧ EditsKept s :=
  h.invariant (I := fun s => Wf P s ∧ EditsKept s)
    (fun _ h₀ => ⟨wf_init h₀, editsKept_init h₀⟩)
    fun _ _ _ hI hC hs => ⟨wf_step hI.1 (step_spec hs),
      editsKept_step hI.2 hI.1 hC (step_spec hs)⟩

/-- The request built from an entity that carries the edits has them. -/
theorem sendRequest_has {m : ScheduledMessage} {r : Row} {edit : Edit}
    (hcarries : m.CarriesAtMost r) (hr : r.Has edit) (hm : m.Carries edit) :
    (sendRequest m).Has edit := by
  refine ⟨fun v hv => ?_, fun v hv => ?_, fun v hv => ?_⟩
  · have hdef := hm.content (by simp [hv])
    rw [sendRequest, hcarries.content.resolve_left hdef, hr.content v hv]
  · have hdef := hm.metadata (by simp [hv])
    rw [sendRequest, hcarries.metadata.resolve_left hdef, hr.metadata v hv]
    simp
  · have hdef := hm.scheduledAt (by simp [hv])
    rw [sendRequest, hcarries.scheduledAt.resolve_left hdef, hr.scheduledAt v hv]

/-- Content and metadata do survive the claim. -/
theorem entity_loaded {newDate : String → Date} {C : Sys → Event → Prop}
    (h : (machine (typeorm newDate)).Reachable C s) :
    ∀ t, ∀ m ∈ (s.phase t).entities, m.content ≠ .undefined ∧ m.metadata ≠ .undefined := by
  refine h.invariant (I := fun s => ∀ t, ∀ m ∈ (s.phase t).entities,
    m.content ≠ .undefined ∧ m.metadata ≠ .undefined) ?_ ?_
  · rintro s ⟨-, hphase, -⟩ t m hm
    simp [hphase t, Phase.entities] at hm
  · intro s e s' hI _ hstep t m hm
    rcases entities_step (step_spec hstep) hm with ⟨m', hm', hsame⟩ | ⟨now, raw, q, -, -, rfl⟩
    · rw [hsame.content, hsame.metadata]
      exact hI t m' hm'
    · rw [show (typeorm newDate).materialize q = _ from repositoryCreate_returningAll q]
      cases q.metadata <;> simp [Slot.ofNullable]

/-- **No edit is lost**, in every run in which no owner's save interferes with
another's or with a tick, and no message is sent whose time was edited. -/
theorem no_edit_lost (newDate : String → Date) :
    NoEditLost (typeorm newDate) (EditsUndisturbed (typeorm newDate)) := by
  intro s h
  obtain ⟨-, hI⟩ := editsKept_of_reachable h
  refine ⟨hI.row, fun t m rest hph hC => ?_⟩
  have hm : m ∈ (s.phase t).entities := by
    rw [hph]
    exact List.mem_cons_self
  obtain ⟨hcontent, hmetadata⟩ := entity_loaded h t m hm
  obtain ⟨i, r, hi, hr, hcarries⟩ := hI.entity t m hm
  have hhas : r.Has (lastEdit m.id s.trace) := by
    rw [hi]
    exact hI.row i r hr
  exact sendRequest_has hcarries hhas
    ⟨fun _ => hcontent, fun _ => hmetadata, fun hne => absurd (hC m rest hph) hne⟩

/-! ## The run that breaks it -/

/-- Two updates read the message, one gives the content and the other the
metadata; both resolve, and the second has written the old content back. -/
theorem overlapping_updates_lose_one :
    ¬ NoEditLost (typeorm fun _ => .invalid) Machine.always := by
  intro h
  have hrun : ((machine (typeorm fun _ => .invalid)).exec (Sys.start (-1000) dueTable)
      [.find 0 "msg-1" (.val "u") (.update ⟨.val "bye", .undefined, .undefined⟩),
        .find 1 "msg-1" (.val "u") (.update ⟨.undefined, .val (.obj []), .undefined⟩),
        .check 0, .check 1, .requestSaved 0 "", .requestSaved 1 ""]).map (fun s =>
      ((s.table.get "msg-1").any fun r => r.content = "hello") &&
        decide ((lastEdit (.val "msg-1") s.trace).content = some "bye")) = some true := by
    decide
  obtain ⟨s, hs, hp⟩ := Machine.Reachable.of_exec (C := Machine.always)
    (init_start (-1000) (show ∀ r ∈ dueTable.rows, _ by decide)) (fun _ _ _ => trivial) hrun
  simp only [Bool.and_eq_true, Option.any_eq_true, decide_eq_true_eq] at hp
  obtain ⟨⟨r, hr, hold⟩, hgiven⟩ := hp
  have hnew := ((h s hs).1 "msg-1" r hr).content "bye" hgiven
  rw [hold] at hnew
  exact absurd hnew (by decide)

end SchedulingService.Messages
