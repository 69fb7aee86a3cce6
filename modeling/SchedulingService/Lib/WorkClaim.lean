import Mathlib.Data.List.Nodup
import Mathlib.Logic.Function.Basic
import SchedulingService.Lib.Transition

/-!
# Work claiming by conditional update

Workers `τ` share a store of items `κ`. A worker takes an item by a
conditional update (it succeeds only on a free item and marks it taken), works
through what it holds in order, hands each item to a recipient, and stores the
outcome: closed, or free again to be retried. A worker may stop at any moment,
and third parties may overwrite items.

What the pattern is for, and what it takes:

* `exclusive_of_reachable` — an item is held by at most one worker, and is
  never free while held, as long as no third party frees a held item;
* `heldTaken_of_reachable` — a held item is still marked taken, if no third
  party writes a held item at all;
* `delivered_le_one` — an item is accepted by the recipient at most once, as
  long as nothing makes an accepted or held item free again;
* `taken_is_held` — every taken item is held by some worker, as long as no
  worker stops while it holds one.
-/

namespace SchedulingService.WorkClaim

/-- What the store says about an item. -/
inductive Cell
  | absent
  | free
  | taken
  | closed
  deriving DecidableEq

/-- The cell an outcome leaves: free to be tried again, or closed. -/
def Cell.ofOutcome : Bool → Cell
  | true => .free
  | false => .closed

theorem Cell.ofOutcome_ne_taken (again : Bool) : Cell.ofOutcome again ≠ .taken := by
  cases again <;> exact Cell.noConfusion

/-- The store, what each worker holds in working order, whether the head of
that list has been handed on and awaits its outcome being stored, and how
often the recipient has accepted each item. -/
@[ext]
structure State (κ τ : Type*) where
  cell : κ → Cell
  held : τ → List κ
  settling : τ → Bool
  delivered : κ → Nat

inductive Event (κ τ : Type*)
  /-- A new item appears. -/
  | add (k : κ)
  /-- The conditional update. -/
  | claim (t : τ) (k : κ)
  /-- The recipient accepts the head of the worker's list. -/
  | deliver (t : τ)
  /-- The recipient refuses it. -/
  | refuse (t : τ)
  /-- The outcome for the head is stored, `again` frees the item; the worker
  goes on with the rest, or stops. -/
  | settle (t : τ) (again goOn : Bool)
  /-- The worker stops and forgets what it holds. -/
  | drop (t : τ)
  /-- A third party overwrites an item. -/
  | write (k : κ) (again : Bool)

variable {κ τ : Type*}

/-- What the worker may still hand on. -/
def State.undelivered (s : State κ τ) (t : τ) : List κ :=
  if s.settling t then (s.held t).tail else s.held t

theorem State.undelivered_subset {s : State κ τ} {t : τ} {k : κ}
    (h : k ∈ s.undelivered t) : k ∈ s.held t := by
  unfold undelivered at h
  split at h
  · exact List.mem_of_mem_tail h
  · exact h

/-! ## Conditions on steps -/

/-- No third party frees an item some worker holds. -/
def NoFreeingHeld (s : State κ τ) : Event κ τ → Prop
  | .write k again => again = true → ∀ t, k ∉ s.held t
  | _ => True

/-- No third party writes an item some worker holds. -/
def NoWritingHeld (s : State κ τ) : Event κ τ → Prop
  | .write k _ => ∀ t, k ∉ s.held t
  | _ => True

/-- Nothing frees an item that was accepted already, nor one being held. -/
def NoSecondChance (s : State κ τ) : Event κ τ → Prop
  | .settle t again _ => again = true → ∀ k ∈ (s.held t).head?, s.delivered k = 0
  | .write k again => again = true → s.delivered k = 0 ∧ ∀ t, k ∉ s.held t
  | _ => True

/-- No worker stops while it holds a taken item. -/
def NoEarlyStop (s : State κ τ) : Event κ τ → Prop
  | .drop t => ∀ k ∈ s.held t, s.cell k ≠ .taken
  | .settle t _ false => ∀ k ∈ (s.held t).tail, s.cell k ≠ .taken
  | _ => True

theorem NoWritingHeld.noFreeingHeld {s : State κ τ} {e : Event κ τ}
    (h : NoWritingHeld s e) : NoFreeingHeld s e := by
  cases e with
  | write k again => exact fun _ => h
  | _ => trivial

theorem NoSecondChance.noFreeingHeld {s : State κ τ} {e : Event κ τ}
    (h : NoSecondChance s e) : NoFreeingHeld s e := by
  cases e with
  | write k again => exact fun hag => (h hag).2
  | _ => trivial

/-! ## The machine -/

variable [DecidableEq κ] [DecidableEq τ]

/-- One step of the pattern. -/
def step (s : State κ τ) : Event κ τ → Option (State κ τ)
  | .add k =>
    if s.cell k = .absent then
      some { s with cell := Function.update s.cell k .free }
    else none
  | .claim t k =>
    -- the condition and the write are one atomic step
    if s.cell k = .free ∧ s.settling t = false then
      some { s with
        cell := Function.update s.cell k .taken
        held := Function.update s.held t (s.held t ++ [k]) }
    else none
  | .deliver t =>
    match s.held t, s.settling t with
    | k :: _, false =>
      some { s with
        settling := Function.update s.settling t true
        delivered := Function.update s.delivered k (s.delivered k + 1) }
    | _, _ => none
  | .refuse t =>
    match s.held t, s.settling t with
    | _ :: _, false => some { s with settling := Function.update s.settling t true }
    | _, _ => none
  | .settle t again goOn =>
    match s.held t, s.settling t with
    | k :: rest, true =>
      some { s with
        cell := Function.update s.cell k (.ofOutcome again)
        held := Function.update s.held t (if goOn then rest else [])
        settling := Function.update s.settling t false }
    | _, _ => none
  | .drop t =>
    some { s with
      held := Function.update s.held t []
      settling := Function.update s.settling t false }
  | .write k again =>
    -- whatever the item has become is overwritten
    if s.cell k = .absent then none
    else some { s with cell := Function.update s.cell k (.ofOutcome again) }

/-- Initially nobody holds anything and nothing was handed on. -/
def machine (κ τ : Type*) [DecidableEq κ] [DecidableEq τ] :
    Machine (State κ τ) (Event κ τ) where
  Init s := (∀ t, s.held t = []) ∧ (∀ t, s.settling t = false) ∧
    (∀ k, s.delivered k = 0) ∧ ∀ k, s.cell k ≠ .taken
  step := step

/-- What one step can do, one constructor per event. -/
inductive Step (s : State κ τ) : Event κ τ → State κ τ → Prop
  | add {k : κ} : s.cell k = .absent →
      Step s (.add k) { s with cell := Function.update s.cell k .free }
  | claim {t : τ} {k : κ} : s.cell k = .free → s.settling t = false →
      Step s (.claim t k) { s with
        cell := Function.update s.cell k .taken
        held := Function.update s.held t (s.held t ++ [k]) }
  | deliver {t : τ} {k : κ} {rest : List κ} :
      s.held t = k :: rest → s.settling t = false →
      Step s (.deliver t) { s with
        settling := Function.update s.settling t true
        delivered := Function.update s.delivered k (s.delivered k + 1) }
  | refuse {t : τ} {k : κ} {rest : List κ} :
      s.held t = k :: rest → s.settling t = false →
      Step s (.refuse t) { s with settling := Function.update s.settling t true }
  | settle {t : τ} {again goOn : Bool} {k : κ} {rest : List κ} :
      s.held t = k :: rest → s.settling t = true →
      Step s (.settle t again goOn) { s with
        cell := Function.update s.cell k (.ofOutcome again)
        held := Function.update s.held t (if goOn then rest else [])
        settling := Function.update s.settling t false }
  | drop {t : τ} :
      Step s (.drop t) { s with
        held := Function.update s.held t []
        settling := Function.update s.settling t false }
  | write {k : κ} {again : Bool} : s.cell k ≠ .absent →
      Step s (.write k again) { s with
        cell := Function.update s.cell k (.ofOutcome again) }

theorem step_iff {s s' : State κ τ} {e : Event κ τ} :
    step s e = some s' ↔ Step s e s' := by
  constructor
  · intro h
    cases e with
    | add k =>
      rw [step, Option.ite_none_right_eq_some] at h
      obtain ⟨hk, h⟩ := h
      obtain rfl := Option.some.inj h
      exact .add hk
    | claim t k =>
      rw [step, Option.ite_none_right_eq_some] at h
      obtain ⟨⟨hk, ht⟩, h⟩ := h
      obtain rfl := Option.some.inj h
      exact .claim hk ht
    | deliver t =>
      rw [step] at h
      split at h
      · rename_i k rest hheld hset
        obtain rfl := Option.some.inj h
        exact .deliver hheld hset
      · exact absurd h (by simp)
    | refuse t =>
      rw [step] at h
      split at h
      · rename_i k rest hheld hset
        obtain rfl := Option.some.inj h
        exact .refuse hheld hset
      · exact absurd h (by simp)
    | settle t again goOn =>
      rw [step] at h
      split at h
      · rename_i k rest hheld hset
        obtain rfl := Option.some.inj h
        exact .settle hheld hset
      · exact absurd h (by simp)
    | drop t =>
      obtain rfl := Option.some.inj h
      exact .drop
    | write k again =>
      rw [step, Option.ite_none_left_eq_some] at h
      obtain ⟨hk, h⟩ := h
      obtain rfl := Option.some.inj h
      exact .write hk
  · intro h
    cases h with
    | add hk => rw [step, if_pos hk]
    | claim hk ht => rw [step, if_pos ⟨hk, ht⟩]
    | deliver hheld hset => simp [step, hheld, hset]
    | refuse hheld hset => simp [step, hheld, hset]
    | settle hheld hset => simp [step, hheld, hset]
    | drop => rfl
    | write hk => rw [step, if_neg hk]

/-! ## Exclusive holding -/

/-- Each item is held at most once, by at most one worker, and is not free (nor
absent) while held. -/
structure Exclusive (s : State κ τ) : Prop where
  nodup  : ∀ t, (s.held t).Nodup
  single : ∀ t t' k, k ∈ s.held t → k ∈ s.held t' → t = t'
  busy   : ∀ t k, k ∈ s.held t → s.cell k = .taken ∨ s.cell k = .closed

omit [DecidableEq κ] [DecidableEq τ] in
theorem Exclusive.not_held_of_free {s : State κ τ} (hI : Exclusive s) {k : κ}
    (h : s.cell k = .free ∨ s.cell k = .absent) (t : τ) : k ∉ s.held t := by
  intro hk
  rcases hI.busy t k hk with hc | hc <;> rcases h with h | h <;> rw [h] at hc <;>
    exact absurd hc (by decide)

omit [DecidableEq κ] in
/-- Replacing one worker's list by a sublist of it keeps the lists exclusive. -/
theorem held_update_sublist {s : State κ τ} (hI : Exclusive s) {t : τ}
    {l : List κ} (hl : l.Sublist (s.held t)) :
    (∀ u, (Function.update s.held t l u).Nodup) ∧
    (∀ u u' k, k ∈ Function.update s.held t l u → k ∈ Function.update s.held t l u' →
      u = u') ∧
    ∀ u k, k ∈ Function.update s.held t l u → k ∈ s.held u := by
  -- membership in the new lists is membership in the old ones
  have hsub : ∀ u k, k ∈ Function.update s.held t l u → k ∈ s.held u := by
    intro u k hk
    by_cases hu : u = t
    · subst hu
      rw [Function.update_self] at hk
      exact hl.subset hk
    · rwa [Function.update_of_ne hu] at hk
  refine ⟨fun u => ?_, fun u u' k hk hk' =>
    hI.single u u' k (hsub u k hk) (hsub u' k hk'), hsub⟩
  by_cases hu : u = t
  · subst hu
    rw [Function.update_self]
    exact (hI.nodup u).sublist hl
  · rw [Function.update_of_ne hu]
    exact hI.nodup u

omit [DecidableEq κ] in
/-- Settling keeps the lists exclusive and takes the head out of all of them. -/
theorem held_settle {s : State κ τ} (hI : Exclusive s) {t : τ} {k : κ} {rest : List κ}
    (hheld : s.held t = k :: rest) (goOn : Bool) :
    let held' := Function.update s.held t (if goOn then rest else [])
    (∀ u, (held' u).Nodup) ∧ (∀ u u' j, j ∈ held' u → j ∈ held' u' → u = u') ∧
    ∀ u j, j ∈ held' u → j ∈ s.held u ∧ j ≠ k := by
  have hrest : (if goOn then rest else []).Sublist rest := by
    cases goOn with
    | true => exact List.Sublist.refl _
    | false => exact List.nil_sublist _
  have hsub : (if goOn then rest else []).Sublist (s.held t) :=
    hheld ▸ hrest.trans (List.sublist_cons_self k rest)
  obtain ⟨hnodup, hsingle, hold⟩ := held_update_sublist hI hsub
  refine ⟨hnodup, hsingle, fun u j hj => ⟨hold u j hj, ?_⟩⟩
  rintro rfl
  -- `k` is in the list of `t` only, and there once, at the head
  have hut : u = t := hI.single u t j (hold u j hj) (by rw [hheld]; simp)
  subst hut
  rw [Function.update_self] at hj
  have := hI.nodup u
  rw [hheld, List.nodup_cons] at this
  exact this.1 (hrest.subset hj)

theorem exclusive_step {s s' : State κ τ} {e : Event κ τ} (hI : Exclusive s)
    (hC : NoFreeingHeld s e) (hs : Step s e s') : Exclusive s' := by
  cases hs with
  | @add k hk =>
    refine ⟨hI.nodup, hI.single, fun t j hj => ?_⟩
    have hne : j ≠ k := by
      rintro rfl
      exact hI.not_held_of_free (.inr hk) t hj
    simpa only [Function.update_of_ne hne] using hI.busy t j hj
  | @claim t k hk ht =>
    have hfree : ∀ u, k ∉ s.held u := hI.not_held_of_free (.inl hk)
    -- the new lists are the old ones with the free item `k` at the end of `t`'s
    have hmem : ∀ u j, j ∈ Function.update s.held t (s.held t ++ [k]) u →
        j ∈ s.held u ∨ (u = t ∧ j = k) := by
      intro u j hj
      by_cases hu : u = t
      · subst hu
        rw [Function.update_self, List.mem_append, List.mem_singleton] at hj
        exact hj.imp id fun h => ⟨rfl, h⟩
      · rw [Function.update_of_ne hu] at hj
        exact .inl hj
    refine ⟨fun u => ?_, fun u u' j hj hj' => ?_, fun u j hj => ?_⟩
    · by_cases hu : u = t
      · subst hu
        simp only [Function.update_self]
        exact List.Nodup.append (hI.nodup u) (List.nodup_singleton k)
          (List.disjoint_singleton.mpr (hfree u))
      · simpa only [Function.update_of_ne hu] using hI.nodup u
    · rcases hmem u j hj with h | ⟨hu, rfl⟩
      · rcases hmem u' j hj' with h' | ⟨-, rfl⟩
        · exact hI.single u u' j h h'
        · exact absurd h (hfree u)
      · rcases hmem u' j hj' with h' | ⟨hu', -⟩
        · exact absurd h' (hfree u')
        · rw [hu, hu']
    · rcases hmem u j hj with h | ⟨-, rfl⟩
      · have hne : j ≠ k := fun hjk => hfree u (hjk ▸ h)
        simpa only [Function.update_of_ne hne] using hI.busy u j h
      · simp
  | deliver | refuse => exact ⟨hI.nodup, hI.single, hI.busy⟩
  | @settle t again goOn k rest hheld hset =>
    obtain ⟨hnodup, hsingle, hold⟩ := held_settle hI hheld goOn
    refine ⟨hnodup, hsingle, fun u j hj => ?_⟩
    obtain ⟨hj', hne⟩ := hold u j hj
    simpa only [Function.update_of_ne hne] using hI.busy u j hj'
  | @drop t =>
    obtain ⟨hnodup, hsingle, hold⟩ :=
      held_update_sublist hI (t := t) (List.nil_sublist _)
    exact ⟨hnodup, hsingle, fun u j hj => hI.busy u j (hold u j hj)⟩
  | @write k again hk =>
    refine ⟨hI.nodup, hI.single, fun u j hj => ?_⟩
    by_cases hjk : j = k
    · subst hjk
      cases again with
      -- a third party frees no held item
      | true => exact absurd hj (hC rfl u)
      | false => simp [Cell.ofOutcome]
    · simpa only [Function.update_of_ne hjk] using hI.busy u j hj

theorem exclusive_of_reachable {s : State κ τ}
    (h : (machine κ τ).Reachable NoFreeingHeld s) : Exclusive s := by
  refine h.invariant (fun s h₀ => ?_)
    fun _ _ _ hI hC hs => exclusive_step hI hC (step_iff.mp hs)
  obtain ⟨hheld, -⟩ := h₀
  refine ⟨fun t => ?_, fun t t' k hk => ?_, fun t k hk => ?_⟩
  · rw [hheld t]
    exact List.nodup_nil
  · rw [hheld t] at hk
    exact absurd hk (by simp)
  · rw [hheld t] at hk
    exact absurd hk (by simp)

/-- What a step leaves in a worker's list was there before, but for an item
claimed in that step. -/
theorem held_step {s s' : State κ τ} {e : Event κ τ} (hs : Step s e s') {u : τ} {k : κ}
    (hk : k ∈ s'.held u) : k ∈ s.held u ∨ (s.cell k = .free ∧ e = .claim u k) := by
  cases hs with
  | add | write | deliver | refuse => exact .inl hk
  | @claim t j hfree hset =>
    by_cases hu : u = t
    · subst hu
      simp only [Function.update_self, List.mem_append, List.mem_singleton] at hk
      exact hk.imp id fun h : k = j => ⟨h ▸ hfree, by rw [h]⟩
    · simp only [Function.update_of_ne hu] at hk
      exact .inl hk
  | @settle t again goOn j rest hheld hset =>
    left
    by_cases hu : u = t
    · subst hu
      have hk' : goOn = true ∧ k ∈ rest := by simpa using hk
      rw [hheld]
      exact List.mem_cons_of_mem j hk'.2
    · simpa only [Function.update_of_ne hu] using hk
  | @drop t =>
    left
    by_cases hu : u = t
    · subst hu
      simp at hk
    · simpa only [Function.update_of_ne hu] using hk

/-! ## Taken while held -/

/-- A held item is still marked taken. -/
def HeldTaken (s : State κ τ) : Prop :=
  ∀ t k, k ∈ s.held t → s.cell k = .taken

theorem heldTaken_step {s s' : State κ τ} {e : Event κ τ} (hE : Exclusive s)
    (hI : HeldTaken s) (hC : NoWritingHeld s e) (hs : Step s e s') :
    HeldTaken s' := by
  cases hs with
  | @add k hk =>
    intro t j hj
    have hne : j ≠ k := by
      rintro rfl
      exact hE.not_held_of_free (.inr hk) t hj
    simpa only [Function.update_of_ne hne] using hI t j hj
  | @claim t k hk ht =>
    intro u j hj
    by_cases hjk : j = k
    · subst hjk
      simp
    · simp only [Function.update_of_ne hjk]
      by_cases hu : u = t
      · subst hu
        simp only [Function.update_self, List.mem_append, List.mem_singleton] at hj
        exact hI u j (hj.resolve_right hjk)
      · simp only [Function.update_of_ne hu] at hj
        exact hI u j hj
  | deliver | refuse => exact hI
  | @settle t again goOn k rest hheld hset =>
    intro u j hj
    obtain ⟨-, -, hold⟩ := held_settle hE hheld goOn
    obtain ⟨hj', hne⟩ := hold u j hj
    simpa only [Function.update_of_ne hne] using hI u j hj'
  | @drop t =>
    obtain ⟨-, -, hold⟩ := held_update_sublist hE (t := t) (List.nil_sublist _)
    exact fun u j hj => hI u j (hold u j hj)
  | @write k again hk =>
    intro u j hj
    -- a held item is written by nobody but its holder
    have hne : j ≠ k := fun hjk => hC u (hjk ▸ hj)
    simpa only [Function.update_of_ne hne] using hI u j hj

theorem heldTaken_of_reachable {s : State κ τ}
    (h : (machine κ τ).Reachable NoWritingHeld s) : Exclusive s ∧ HeldTaken s := by
  refine h.invariant (I := fun s => Exclusive s ∧ HeldTaken s) (fun s h₀ => ?_)
    fun _ _ _ hI hC hs => ⟨exclusive_step hI.1 hC.noFreeingHeld (step_iff.mp hs),
      heldTaken_step hI.1 hI.2 hC (step_iff.mp hs)⟩
  refine ⟨exclusive_of_reachable ⟨s, h₀, .refl⟩, fun t k hk => ?_⟩
  rw [h₀.1 t] at hk
  exact absurd hk (by simp)

/-! ## At most one delivery -/

/-- An accepted item was accepted once, is not free, and is in nobody's list of
items still to be handed on. -/
structure DeliveredOnce (s : State κ τ) : Prop where
  le_one : ∀ k, s.delivered k ≤ 1
  closed : ∀ k, s.delivered k ≠ 0 → s.cell k = .taken ∨ s.cell k = .closed
  spent  : ∀ k t, s.delivered k ≠ 0 → k ∉ s.undelivered t

omit [DecidableEq κ] [DecidableEq τ] in
theorem undelivered_of_not_settling {s : State κ τ} {t : τ}
    (h : s.settling t = false) : s.undelivered t = s.held t := by
  simp [State.undelivered, h]

/-- The lists of items to be handed on that a step leaves come from the old
ones, but for an item claimed in that step. -/
theorem undelivered_step {s s' : State κ τ} {e : Event κ τ} (hs : Step s e s')
    {u : τ} {k : κ} (hk : k ∈ s'.undelivered u) :
    k ∈ s.undelivered u ∨ (s.cell k = .free ∧ e = .claim u k) := by
  cases hs with
  | add | write => exact .inl hk
  -- only a claim makes it longer, and only the claimer's
  | @claim t j hfree hset =>
    by_cases hu : u = t
    · subst hu
      rw [undelivered_of_not_settling (by exact hset)] at hk
      rw [undelivered_of_not_settling hset]
      simp only [Function.update_self, List.mem_append, List.mem_singleton] at hk
      exact hk.imp id fun h : k = j => ⟨h ▸ hfree, by rw [h]⟩
    · left
      simpa only [State.undelivered, Function.update_of_ne hu] using hk
  | @deliver t j rest hheld hset | @refuse t j rest hheld hset =>
    left
    by_cases hu : u = t
    · subst hu
      rw [undelivered_of_not_settling hset, hheld]
      simp only [State.undelivered, Function.update_self, if_true, hheld,
        List.tail_cons] at hk
      exact List.mem_cons_of_mem j hk
    · simpa only [State.undelivered, Function.update_of_ne hu] using hk
  | @settle t again goOn j rest hheld hset =>
    left
    by_cases hu : u = t
    · subst hu
      have hk' : goOn = true ∧ k ∈ rest := by simpa [State.undelivered] using hk
      simpa [State.undelivered, hset, hheld] using hk'.2
    · simpa only [State.undelivered, Function.update_of_ne hu] using hk
  | @drop t =>
    left
    by_cases hu : u = t
    · subst hu
      simp [State.undelivered] at hk
    · simpa only [State.undelivered, Function.update_of_ne hu] using hk

/-- The head is held by its worker alone, so once handed on it is in nobody's list. -/
theorem notMem_undelivered_of_deliver {s s' : State κ τ} {t : τ} {k : κ} {rest : List κ}
    (hE : Exclusive s) (hheld : s.held t = k :: rest) (hs : Step s (.deliver t) s') (u : τ) :
    k ∉ s'.undelivered u := by
  intro hmem
  cases hs with
  | deliver =>
    by_cases hu : u = t
    · subst hu
      simp only [State.undelivered, Function.update_self, if_true, hheld,
        List.tail_cons] at hmem
      have hnodup := hE.nodup u
      rw [hheld, List.nodup_cons] at hnodup
      exact hnodup.1 hmem
    · simp only [State.undelivered, Function.update_of_ne hu] at hmem
      exact hu (hE.single u t k (State.undelivered_subset hmem) (by simp [hheld]))

theorem deliveredOnce_step {s s' : State κ τ} {e : Event κ τ} (hE : Exclusive s)
    (hI : DeliveredOnce s) (hC : NoSecondChance s e) (hs : Step s e s') :
    DeliveredOnce s' := by
  -- an accepted item is in no list before the step, and cannot be claimed in it
  have hspent : ∀ k t, s.delivered k ≠ 0 → k ∉ s'.undelivered t := by
    intro k t hk hmem
    rcases undelivered_step hs hmem with h | ⟨hfree, -⟩
    · exact hI.spent k t hk h
    · rcases hI.closed k hk with h | h <;> rw [hfree] at h <;> exact absurd h (by decide)
  cases hs with
  | @add k hk =>
    refine ⟨hI.le_one, fun j hj => ?_, hspent⟩
    have hne : j ≠ k := by
      rintro rfl
      rcases hI.closed j hj with h | h <;> rw [hk] at h <;> exact absurd h (by decide)
    simpa only [Function.update_of_ne hne] using hI.closed j hj
  | @claim t k hfree hset =>
    refine ⟨hI.le_one, fun j hj => ?_, hspent⟩
    by_cases hjk : j = k
    · subst hjk
      simp
    · simpa only [Function.update_of_ne hjk] using hI.closed j hj
  | @deliver t k rest hheld hset =>
    -- the item handed on was still to be, so it had not been accepted
    have hkt : k ∈ s.undelivered t := by
      rw [undelivered_of_not_settling hset, hheld]
      simp
    have hzero : s.delivered k = 0 := by
      by_contra h
      exact hI.spent k t h hkt
    have hk : k ∈ s.held t := State.undelivered_subset hkt
    refine ⟨fun j => ?_, fun j hj => ?_, fun j u hj hmem => ?_⟩
    · by_cases hjk : j = k
      · subst hjk
        simp [hzero]
      · simpa only [Function.update_of_ne hjk] using hI.le_one j
    · by_cases hjk : j = k
      · exact hjk ▸ hE.busy t k hk
      · simp only [Function.update_of_ne hjk] at hj
        exact hI.closed j hj
    · by_cases hjk : j = k
      · subst hjk
        exact notMem_undelivered_of_deliver hE hheld (.deliver hheld hset) u hmem
      · simp only [Function.update_of_ne hjk] at hj
        exact hspent j u hj hmem
  | refuse => exact ⟨hI.le_one, hI.closed, hspent⟩
  | @settle t again goOn k rest hheld hset =>
    refine ⟨hI.le_one, fun j hj => ?_, hspent⟩
    by_cases hjk : j = k
    · subst hjk
      cases again with
      | true => exact absurd (hC rfl j (by simp [hheld])) hj
      | false => simp [Cell.ofOutcome]
    · simpa only [Function.update_of_ne hjk] using hI.closed j hj
  | drop => exact ⟨hI.le_one, hI.closed, hspent⟩
  | @write k again hk =>
    refine ⟨hI.le_one, fun j hj => ?_, hspent⟩
    by_cases hjk : j = k
    · subst hjk
      cases again with
      | true => exact absurd (hC rfl).1 hj
      | false => simp [Cell.ofOutcome]
    · simpa only [Function.update_of_ne hjk] using hI.closed j hj

/-- **At most one delivery.** -/
theorem delivered_le_one {s : State κ τ}
    (h : (machine κ τ).Reachable NoSecondChance s) (k : κ) : s.delivered k ≤ 1 := by
  have hboth : Exclusive s ∧ DeliveredOnce s := by
    refine h.invariant (I := fun s => Exclusive s ∧ DeliveredOnce s) (fun s h₀ => ?_)
      fun _ _ _ hI hC hs => ⟨exclusive_step hI.1 hC.noFreeingHeld (step_iff.mp hs),
        deliveredOnce_step hI.1 hI.2 hC (step_iff.mp hs)⟩
    have hzero : ∀ k, s.delivered k = 0 := h₀.2.2.1
    refine ⟨exclusive_of_reachable ⟨s, h₀, .refl⟩, fun k => ?_,
      fun k hk => absurd (hzero k) hk, fun k t hk => absurd (hzero k) hk⟩
    rw [hzero k]
    exact Nat.zero_le 1
  exact hboth.2.le_one k

/-! ## Nothing stranded -/

/-- Every taken item is held. -/
def TakenHeld (s : State κ τ) : Prop :=
  ∀ k, s.cell k = .taken → ∃ t, k ∈ s.held t

theorem takenHeld_step {s s' : State κ τ} {e : Event κ τ} (hI : TakenHeld s)
    (hC : NoEarlyStop s e) (hs : Step s e s') : TakenHeld s' := by
  intro k hk
  cases hs with
  | @add j hj =>
    by_cases hkj : k = j
    · subst hkj
      simp at hk
    · simp only [Function.update_of_ne hkj] at hk
      exact hI k hk
  | @claim t j hfree hset =>
    by_cases hkj : k = j
    · subst hkj
      exact ⟨t, by simp⟩
    · simp only [Function.update_of_ne hkj] at hk
      obtain ⟨u, hu⟩ := hI k hk
      refine ⟨u, ?_⟩
      by_cases hut : u = t
      · subst hut
        simp [hu]
      · simpa only [Function.update_of_ne hut] using hu
  | deliver | refuse => exact hI k hk
  | @settle t again goOn j rest hheld hset =>
    by_cases hkj : k = j
    · subst hkj
      cases again <;> simp [Cell.ofOutcome] at hk
    · simp only [Function.update_of_ne hkj] at hk
      obtain ⟨u, hu⟩ := hI k hk
      refine ⟨u, ?_⟩
      by_cases hut : u = t
      · subst hut
        rw [hheld, List.mem_cons] at hu
        have hrest : k ∈ rest := hu.resolve_left hkj
        cases goOn with
        | true => simpa using hrest
        -- stopping here is what `NoEarlyStop` excludes
        | false => exact absurd hk (hC k (by rwa [hheld]))
      · simpa only [Function.update_of_ne hut] using hu
  | @drop t =>
    obtain ⟨u, hu⟩ := hI k hk
    refine ⟨u, ?_⟩
    have hut : u ≠ t := by
      rintro rfl
      exact hC k hu hk
    simpa only [Function.update_of_ne hut] using hu
  | @write j again hj =>
    by_cases hkj : k = j
    · subst hkj
      cases again <;> simp [Cell.ofOutcome] at hk
    · simp only [Function.update_of_ne hkj] at hk
      exact hI k hk

/-- **Nothing stranded.** -/
theorem taken_is_held {s : State κ τ}
    (h : (machine κ τ).Reachable NoEarlyStop s) : TakenHeld s := by
  refine h.invariant (I := TakenHeld) (fun s h₀ k hk => ?_)
    fun _ _ _ hI hC hs => takenHeld_step hI hC (step_iff.mp hs)
  exact absurd hk (h₀.2.2.2 k)

end SchedulingService.WorkClaim
