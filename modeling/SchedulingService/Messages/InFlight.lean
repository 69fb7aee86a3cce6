import SchedulingService.Messages.Steps

/-!
# What a tick has in memory

The candidates a tick is claiming, the messages it is still to send and the
entities it works with, and where they come from: `ids_step`, `raw_step`,
`toSend_step` and `entities_step` trace them back by one step.
-/

namespace SchedulingService.Messages

open Js

variable {P : Platform} {s s' : Sys} {e : Event}

/-- The messages the messaging service will still be called for. -/
def Phase.toSend : Phase → List MsgKey
  | claiming _ _ raw => raw.map fun r => .val r.id
  | sending m rest => m.id :: rest.map ScheduledMessage.id
  | calling _ rest => rest.map ScheduledMessage.id
  | saving _ _ rest => rest.map ScheduledMessage.id
  | _ => []

/-- The entities a tick has in memory. -/
def Phase.entities : Phase → List ScheduledMessage
  | sending m rest => m :: rest
  | calling m rest => m :: rest
  | saving m _ rest => m :: rest
  | _ => []

@[simp] theorem toSend_loop (ms : List ScheduledMessage) :
    (Phase.loop ms).toSend = ms.map ScheduledMessage.id := by
  cases ms <;> rfl

@[simp] theorem entities_loop (ms : List ScheduledMessage) : (Phase.loop ms).entities = ms := by
  cases ms <;> rfl

theorem claiming_ne_loop {now : Int} {ids : List Id} {raw : List Row}
    (ms : List ScheduledMessage) : Phase.claiming now ids raw ≠ .loop ms := by
  cases ms <;> exact Phase.noConfusion

/-- What a tick is to send it was to send before, or has just claimed. -/
theorem toSend_step (hs : Step P s e s') {t : TickId} {k : MsgKey}
    (hk : k ∈ (s'.phase t).toSend) : k ∈ (s.phase t).toSend ∨
      ∃ i now ids raw, k = .val i ∧ e = .claimRow t i ∧
        s.phase t = .claiming now ids raw ∧ i ∈ ids := by
  rcases phase_step hs t with h | h
  · exact .inl (h ▸ hk)
  · generalize hp : s.phase t = p at h
    generalize hp' : s'.phase t = p' at h
    rw [hp'] at hk
    cases h with
    | @claimRow now i ids raw r r' hi hclaim hid =>
      simp only [Phase.toSend, List.map_append, List.mem_append, List.map_cons, List.map_nil,
        List.mem_singleton] at hk
      rcases hk with hk | hk
      · exact .inl hk
      · exact .inr ⟨i, now, ids, raw, by rw [hk, hclaim.id_eq, hid], rfl, rfl, hi⟩
    | claimed =>
      -- the entities have the ids of the rows they were made of
      rw [toSend_loop, List.map_map] at hk
      left
      simpa [Phase.toSend, P.materialize_id] using hk
    | @saved m site rest =>
      left
      rw [afterSave] at hk
      split at hk
      · rwa [toSend_loop] at hk
      · exact absurd hk (by simp [Phase.toSend])
    | @saveError error m site rest =>
      left
      cases site with
      | afterSend => exact hk
      | onError error' => simp [afterSaveError, Phase.toSend] at hk
    | missRow => exact .inl hk
    -- the head is no longer to be sent
    | send => exact .inl (List.mem_cons_of_mem _ hk)
    | ack => exact .inl hk
    | sendError => exact .inl hk
    | _ => simp [Phase.toSend] at hk

/-- Same identity and same payload; status and retries may differ. -/
structure SamePayload (m m' : ScheduledMessage) : Prop where
  id          : m.id = m'.id
  content     : m.content = m'.content
  metadata    : m.metadata = m'.metadata
  scheduledAt : m.scheduledAt = m'.scheduledAt

theorem SamePayload.refl (m : ScheduledMessage) : SamePayload m m := ⟨rfl, rfl, rfl, rfl⟩

theorem samePayload_onSent (m : ScheduledMessage) : SamePayload (onSent m) m :=
  ⟨rfl, rfl, rfl, rfl⟩

theorem samePayload_onSendError (error : Value) (m : ScheduledMessage) :
    SamePayload (onSendError error m) m :=
  ⟨onSendError_id error m, onSendError_content error m, onSendError_metadata error m,
    onSendError_scheduledAt error m⟩

/-- An entity in memory has the payload of one that was there before, or was
made of a claimed row. -/
theorem entities_step (hs : Step P s e s') {t : TickId} {m : ScheduledMessage}
    (hm : m ∈ (s'.phase t).entities) :
    (∃ m' ∈ (s.phase t).entities, SamePayload m m') ∨
      ∃ now raw r, s.phase t = .claiming now [] raw ∧ r ∈ raw ∧ m = P.materialize r := by
  rcases phase_step hs t with h | h
  · exact .inl ⟨m, h ▸ hm, .refl m⟩
  · generalize hp : s.phase t = p at h
    generalize hp' : s'.phase t = p' at h
    rw [hp'] at hm
    cases h with
    -- the batch comes from the rows the UPDATE answered
    | @claimed now raw =>
      rw [entities_loop, List.mem_map] at hm
      obtain ⟨r, hr, rfl⟩ := hm
      exact .inr ⟨now, raw, r, rfl, hr, rfl⟩
    | send => exact .inl ⟨m, hm, .refl m⟩
    | @ack m₀ rest =>
      left
      rcases List.mem_cons.mp hm with rfl | hm
      · exact ⟨m₀, List.mem_cons_self, samePayload_onSent m₀⟩
      · exact ⟨m, List.mem_cons_of_mem _ hm, .refl m⟩
    | @sendError error m₀ rest =>
      left
      rcases List.mem_cons.mp hm with rfl | hm
      · exact ⟨m₀, List.mem_cons_self, samePayload_onSendError error m₀⟩
      · exact ⟨m, List.mem_cons_of_mem _ hm, .refl m⟩
    | @saved m₀ site rest =>
      left
      rw [afterSave] at hm
      -- the rest of the batch is left, or nothing if the log throws
      split at hm
      · rw [entities_loop] at hm
        exact ⟨m, List.mem_cons_of_mem _ hm, .refl m⟩
      · exact absurd hm (by simp [Phase.entities])
    | @saveError error m₀ site rest =>
      left
      cases site with
      -- the catch block marks the entity once more
      | afterSend =>
        rcases List.mem_cons.mp hm with rfl | hm
        · exact ⟨m₀, List.mem_cons_self, samePayload_onSendError error m₀⟩
        · exact ⟨m, List.mem_cons_of_mem _ hm, .refl m⟩
      -- the second throw ends the tick
      | onError error' => exact absurd hm (by simp [afterSaveError, Phase.entities])
    | _ => exact absurd hm (by simp [Phase.entities])

/-- How a tick comes to be claiming `ids` with the answer `raw`. -/
inductive ClaimingStep (s s' : Sys) (t : TickId) (now : Int) (ids : List Id)
    (raw : List Row) : Event → Prop
  | same {e : Event} : s.phase t = .claiming now ids raw → ClaimingStep s s' t now ids raw e
  | select {order : List Id} : now ≤ s.now → Selects s.table now order →
      ids = candidateIds order → raw = [] →
      ClaimingStep s s' t now ids raw (.select t now order)
  | hit {i : Id} {ids₀ : List Id} {raw₀ : List Row} {r r' : Row} :
      s.phase t = .claiming now ids₀ raw₀ → ids = ids₀.erase i → raw = raw₀ ++ [r'] →
      Claimed s.table s'.table r r' → ClaimingStep s s' t now ids raw (.claimRow t i)
  | miss {i : Id} {ids₀ : List Id} : s.phase t = .claiming now ids₀ raw →
      ids = ids₀.erase i → ClaimingStep s s' t now ids raw (.claimRow t i)

theorem claiming_step (hs : Step P s e s') {t : TickId} {now : Int} {ids : List Id}
    {raw : List Row} (hph : s'.phase t = .claiming now ids raw) :
    ClaimingStep s s' t now ids raw e := by
  rcases phase_step hs t with h | h
  · exact .same (h ▸ hph)
  · rw [hph] at h
    generalize hp : s.phase t = p at h
    generalize hp' : Phase.claiming now ids raw = p' at h
    cases h with
    | select hnow hsel =>
      obtain ⟨rfl, rfl, rfl⟩ := Phase.claiming.inj hp'
      exact .select hnow hsel rfl rfl
    | claimRow hi hclaim hid =>
      obtain ⟨rfl, rfl, rfl⟩ := Phase.claiming.inj hp'
      exact .hit hp rfl rfl hclaim
    | missRow =>
      obtain ⟨rfl, rfl, rfl⟩ := Phase.claiming.inj hp'
      exact .miss hp rfl
    -- every other step leaves the tick elsewhere
    | claimed => exact absurd hp' (claiming_ne_loop _)
    | saved =>
      rw [afterSave] at hp'
      split at hp'
      · exact absurd hp' (claiming_ne_loop _)
      · exact absurd hp' (by simp)
    | @saveError error m site =>
      cases site <;> exact absurd hp' (by simp [afterSaveError])
    | _ => exact absurd hp' (by simp)

/-- A row in a tick's answer was in it before, or has just been claimed. -/
theorem raw_step (hs : Step P s e s') {t : TickId} {now : Int} {ids : List Id}
    {raw : List Row} (hph : s'.phase t = .claiming now ids raw) {q : Row} (hq : q ∈ raw) :
    (∃ now' ids' raw', s.phase t = .claiming now' ids' raw' ∧ q ∈ raw') ∨
      ∃ r, s.table.get r.id = some r ∧ s'.table.get r.id = some q ∧
        q = { r with status := .processing } := by
  cases claiming_step hs hph with
  | same h => exact .inl ⟨now, ids, raw, h, hq⟩
  | select _ _ _ hraw =>
    rw [hraw] at hq
    exact absurd hq (by simp)
  | hit h _ hraw hclaim =>
    rw [hraw, List.mem_append, List.mem_singleton] at hq
    rcases hq with hq | rfl
    · exact .inl ⟨_, _, _, h, hq⟩
    · exact .inr ⟨_, hclaim.before, hclaim.get_self, hclaim.row_eq⟩
  | miss h => exact .inl ⟨_, _, _, h, hq⟩

/-- Candidates not visited yet were candidates before, or have just been
selected. -/
theorem ids_step (hs : Step P s e s') {t : TickId} {now : Int} {ids : List Id}
    {raw : List Row} (hph : s'.phase t = .claiming now ids raw) :
    (∃ ids' raw', s.phase t = .claiming now ids' raw' ∧ ids ⊆ ids') ∨
      ∃ order, e = .select t now order ∧ now ≤ s.now ∧ Selects s.table now order ∧
        ids = candidateIds order := by
  cases claiming_step hs hph with
  | same h => exact .inl ⟨ids, raw, h, List.Subset.refl ids⟩
  | select hnow hsel hids => exact .inr ⟨_, rfl, hnow, hsel, hids⟩
  | hit h hids | miss h hids => exact .inl ⟨_, _, h, hids ▸ List.erase_subset⟩

/-- What a tick works with it holds. -/
theorem held_of_entity {t : TickId} {m : ScheduledMessage} (hm : m ∈ (s.phase t).entities) :
    s.Holds t m.id := by
  unfold Sys.Holds
  cases hp : s.phase t with
  | sending m₀ rest | calling m₀ rest | saving m₀ site rest =>
    rw [hp] at hm
    exact List.mem_map_of_mem hm
  | _ =>
    rw [hp] at hm
    exact absurd hm (by simp [Phase.entities])

theorem held_of_raw {t : TickId} {now : Int} {ids : List Id} {raw : List Row}
    (hph : s.phase t = .claiming now ids raw) {q : Row} (hq : q ∈ raw) :
    s.Holds t (.val q.id) := by
  rw [Sys.Holds, hph]
  exact List.mem_map.mpr ⟨q, hq, rfl⟩

end SchedulingService.Messages
