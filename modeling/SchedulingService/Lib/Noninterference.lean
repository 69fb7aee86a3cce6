import Mathlib.Data.List.Basic

/-!
# Noninterference

A service performs calls one after the other on a shared state and replies to
each. Every call has a caller, and every caller a view of the state.

* `Isolates` — the two conditions on one call: it leaves the views of others as
  they are, and its reply and its caller's new view depend on the caller's old
  view only;
* `Isolates.noninterference` — then a caller cannot tell a run from the one with
  the calls of all others purged.

`ok` says which calls may be made in which state; it is asked along the run.
-/

namespace SchedulingService.Noninterference

variable {σ α β υ γ : Type*}

structure Service (σ α β υ γ : Type*) where
  perform : σ → α → σ × β
  caller : α → υ
  view : υ → σ → γ

namespace Service

/-- The state after a run. -/
def final (S : Service σ α β υ γ) (s : σ) : List α → σ
  | [] => s
  | a :: calls => final S (S.perform s a).1 calls

/-- Every call of the run may be made when its turn comes. -/
def Allowed (S : Service σ α β υ γ) (ok : σ → α → Prop) (s : σ) : List α → Prop
  | [] => True
  | a :: calls => ok s a ∧ Allowed S ok (S.perform s a).1 calls

/-- The replies to the calls of `u`. -/
def replies [DecidableEq υ] (S : Service σ α β υ γ) (u : υ) (s : σ) : List α → List β
  | [] => []
  | a :: calls =>
    if S.caller a = u then (S.perform s a).2 :: replies S u (S.perform s a).1 calls
    else replies S u (S.perform s a).1 calls

/-- The run without the calls of the others. -/
def purge [DecidableEq υ] (S : Service σ α β υ γ) (u : υ) (calls : List α) : List α :=
  calls.filter fun a => S.caller a = u

theorem final_append (S : Service σ α β υ γ) (s : σ) (calls : List α) (a : α) :
    S.final s (calls ++ [a]) = (S.perform (S.final s calls) a).1 := by
  induction calls generalizing s with
  | nil => rfl
  | cons b calls ih => exact ih _

theorem allowed_append {S : Service σ α β υ γ} {ok : σ → α → Prop} {s : σ} {calls : List α}
    {a : α} (h : S.Allowed ok s calls) (ha : ok (S.final s calls) a) :
    S.Allowed ok s (calls ++ [a]) := by
  induction calls generalizing s with
  | nil => exact ⟨ha, trivial⟩
  | cons b calls ih => exact ⟨h.1, ih h.2 ha⟩

theorem replies_append [DecidableEq υ] (S : Service σ α β υ γ) (u : υ) (s : σ)
    (calls : List α) (a : α) :
    S.replies u s (calls ++ [a]) = S.replies u s calls ++
      if S.caller a = u then [(S.perform (S.final s calls) a).2] else [] := by
  induction calls generalizing s with
  | nil =>
    rw [List.nil_append, replies, replies]
    split <;> rfl
  | cons b calls ih =>
    rw [List.cons_append, replies, replies, ih, final]
    split <;> rfl

end Service

/-- What one call keeps from the others, and what it shows its caller. -/
structure Isolates (S : Service σ α β υ γ) (ok : σ → α → Prop) : Prop where
  others : ∀ s a u, ok s a → S.caller a ≠ u → S.view u (S.perform s a).1 = S.view u s
  own : ∀ s s' a, ok s a → ok s' a → S.view (S.caller a) s = S.view (S.caller a) s' →
    (S.perform s a).2 = (S.perform s' a).2 ∧
      S.view (S.caller a) (S.perform s a).1 = S.view (S.caller a) (S.perform s' a).1

/-- **Noninterference.** By induction on the run: a call of another leaves the
view as it is, and is not in the purged run. -/
theorem Isolates.noninterference [DecidableEq υ] {S : Service σ α β υ γ}
    {ok : σ → α → Prop} (h : Isolates S ok) {u : υ} {calls : List α} {s s' : σ}
    (hs : S.Allowed ok s calls) (hs' : S.Allowed ok s' (S.purge u calls))
    (hview : S.view u s = S.view u s') :
    S.replies u s calls = S.replies u s' (S.purge u calls) ∧
      S.view u (S.final s calls) = S.view u (S.final s' (S.purge u calls)) := by
  induction calls generalizing s s' with
  | nil => exact ⟨rfl, hview⟩
  | cons a calls ih =>
    obtain ⟨hok, hrest⟩ := hs
    by_cases hcaller : S.caller a = u
    · have hpurge : S.purge u (a :: calls) = a :: S.purge u calls :=
        List.filter_cons_of_pos (by simpa using hcaller)
      rw [hpurge] at hs' ⊢
      obtain ⟨hok', hrest'⟩ := hs'
      -- both runs make the call, on states that `u` sees alike
      obtain ⟨hreply, hnext⟩ := h.own s s' a hok hok' (by rw [hcaller]; exact hview)
      rw [hcaller] at hnext
      obtain ⟨hreplies, hfinal⟩ := ih hrest hrest' hnext
      refine ⟨?_, hfinal⟩
      simp only [Service.replies, hcaller, if_true, hreply, hreplies]
    · have hpurge : S.purge u (a :: calls) = S.purge u calls :=
        List.filter_cons_of_neg (by simpa using hcaller)
      rw [hpurge] at hs' ⊢
      -- only the full run makes it, and `u` sees no difference
      have hsame := (h.others s a u hok hcaller).trans hview
      obtain ⟨hreplies, hfinal⟩ := ih hrest hs' hsame
      refine ⟨?_, hfinal⟩
      simp only [Service.replies, hcaller, if_false, hreplies]

end SchedulingService.Noninterference
