import Mathlib.Data.List.Induction
import Mathlib.Data.Option.Basic

/-!
# Labelled machines and their runs

A `Machine` says where a system may start and what each event does to a
state (`none` where the event cannot happen). Everything else about a system
is a statement about its runs:

* `Run C s s'` — `s'` is reached from `s` by steps each of which meets the
  condition `C` in the state it is taken from;
* `Reachable C s` — the same from an initial state.

The condition is what a qualified safety theorem varies: the unqualified
statement is the one at `Machine.always`. The rules below are the inductions
over runs, done once: `Run.invariant` for one state, `Run.stable` for what
never changes again, `throughout_iff_along` for an invariant and the exact
condition on the steps under which it holds, `exec_history` for an invariant that
speaks of the events so far, and `Simulation.reachable` to carry a result about an
abstract machine down to the machine that refines it.
-/

namespace SchedulingService

/-- A deterministic labelled machine: initial states, and one partial step. -/
structure Machine (σ ε : Type*) where
  Init : σ → Prop
  step : σ → ε → Option σ

namespace Machine

variable {σ ε τ δ : Type*} {M : Machine σ ε} {C D : σ → ε → Prop}

/-- The condition every step meets. -/
def always (_ : σ) (_ : ε) : Prop := True

/-- `Run M C s s'`: some sequence of steps, each meeting `C`, leads from `s`
to `s'`. -/
inductive Run (M : Machine σ ε) (C : σ → ε → Prop) (s : σ) : σ → Prop
  | refl : Run M C s s
  | tail {s₁ s₂ : σ} {e : ε} :
      Run M C s s₁ → C s₁ e → M.step s₁ e = some s₂ → Run M C s s₂

/-- Reached from an initial state by steps that meet `C`. -/
def Reachable (M : Machine σ ε) (C : σ → ε → Prop) (s : σ) : Prop :=
  ∃ s₀, M.Init s₀ ∧ Run M C s₀ s

/-- The state after a list of events, if all of them can happen. -/
def exec (M : Machine σ ε) (s : σ) : List ε → Option σ
  | [] => some s
  | e :: es => (M.step s e).bind fun s' => exec M s' es

theorem exec_cons {s s' : σ} {e : ε} (h : M.step s e = some s') (es : List ε) :
    M.exec s (e :: es) = M.exec s' es := by
  rw [exec, h, Option.bind_some]

theorem exec_append (s : σ) (es fs : List ε) :
    M.exec s (es ++ fs) = (M.exec s es).bind fun s' => M.exec s' fs := by
  induction es generalizing s with
  | nil => rfl
  | cons e es ih =>
    simp only [List.cons_append, exec, Option.bind_assoc, ih]

namespace Run

theorem single {s s' : σ} {e : ε} (hC : C s e) (h : M.step s e = some s') :
    Run M C s s' :=
  .tail .refl hC h

theorem trans {s₁ s₂ s₃ : σ} (h₁ : Run M C s₁ s₂) (h₂ : Run M C s₂ s₃) :
    Run M C s₁ s₃ := by
  induction h₂ with
  | refl => exact h₁
  | tail _ hC hs ih => exact .tail ih hC hs

theorem mono (hCD : ∀ s e, C s e → D s e) {s s' : σ} (h : Run M C s s') :
    Run M D s s' := by
  induction h with
  | refl => exact .refl
  | tail _ hC hs ih => exact .tail ih (hCD _ _ hC) hs

/-- **Invariant rule.** What every step meeting `C` preserves, every run
preserves. -/
theorem invariant {I : σ → Prop}
    (hstep : ∀ s e s', I s → C s e → M.step s e = some s' → I s')
    {s s' : σ} (h : Run M C s s') (h₀ : I s) : I s' := by
  induction h with
  | refl => exact h₀
  | tail _ hC hs ih => exact hstep _ _ _ ih hC hs

/-- **Stability rule.** A quantity that no step out of an `I`-state changes
keeps its value along every run from an `I`-state. -/
theorem stable {α : Type*} {I : σ → Prop} (f : σ → α)
    (hstep : ∀ s e s', I s → C s e → M.step s e = some s' → I s' ∧ f s' = f s)
    {s s' : σ} (h : Run M C s s') (h₀ : I s) : I s' ∧ f s' = f s := by
  induction h with
  | refl => exact ⟨h₀, rfl⟩
  | tail _ hC hs ih =>
    obtain ⟨hI, hf⟩ := hstep _ _ _ ih.1 hC hs
    exact ⟨hI, hf.trans ih.2⟩

/-- An executed list of events is a run, under any condition all of them meet. -/
theorem of_exec {s s' : σ} {es : List ε} (hC : ∀ e ∈ es, ∀ s, C s e)
    (h : M.exec s es = some s') : Run M C s s' := by
  induction es generalizing s with
  | nil =>
    rw [exec, Option.some.injEq] at h
    exact h ▸ .refl
  | cons e es ih =>
    rw [exec, Option.bind_eq_some_iff] at h
    obtain ⟨s₁, hs, hrest⟩ := h
    have he : C s e := hC e List.mem_cons_self s
    exact (single he hs).trans (ih (fun e' he' => hC e' (List.mem_cons_of_mem e he')) hrest)

end Run

namespace Reachable

theorem mono (hCD : ∀ s e, C s e → D s e) {s : σ} (h : Reachable M C s) :
    Reachable M D s := by
  obtain ⟨s₀, h₀, hrun⟩ := h
  exact ⟨s₀, h₀, hrun.mono hCD⟩

theorem step {s s' : σ} {e : ε} (h : Reachable M C s) (hC : C s e)
    (hs : M.step s e = some s') : Reachable M C s' := by
  obtain ⟨s₀, h₀, hrun⟩ := h
  exact ⟨s₀, h₀, .tail hrun hC hs⟩

theorem run {s s' : σ} (h : Reachable M C s) (hrun : Run M C s s') :
    Reachable M C s' := by
  obtain ⟨s₀, h₀, hrun₀⟩ := h
  exact ⟨s₀, h₀, hrun₀.trans hrun⟩

/-- Invariant rule from the initial states. -/
theorem invariant {I : σ → Prop} (hinit : ∀ s, M.Init s → I s)
    (hstep : ∀ s e s', I s → C s e → M.step s e = some s' → I s')
    {s : σ} (h : Reachable M C s) : I s := by
  obtain ⟨s₀, h₀, hrun⟩ := h
  exact hrun.invariant hstep (hinit s₀ h₀)

/-- A state that satisfies `p` and is reached by a given list of events. -/
theorem of_exec {s₀ : σ} {es : List ε} {p : σ → Bool} (h₀ : M.Init s₀)
    (hC : ∀ e ∈ es, ∀ s, C s e) (h : (M.exec s₀ es).map p = some true) :
    ∃ s, Reachable M C s ∧ p s = true := by
  rw [Option.map_eq_some_iff] at h
  obtain ⟨s, hs, hp⟩ := h
  exact ⟨s, ⟨s₀, h₀, .of_exec hC hs⟩, hp⟩

end Reachable

/-! ## Along a given list of events -/

/-- `I` holds in every state that `es` leads through from `s`. -/
def Throughout (M : Machine σ ε) (I : σ → Prop) (s : σ) : List ε → Prop
  | [] => I s
  | e :: es => I s ∧ ∀ s', M.step s e = some s' → Throughout M I s' es

/-- `C` holds of every step of `es` from `s`. -/
def Along (M : Machine σ ε) (C : σ → ε → Prop) (s : σ) : List ε → Prop
  | [] => True
  | e :: es => C s e ∧ ∀ s', M.step s e = some s' → Along M C s' es

theorem Throughout.head {I : σ → Prop} {s : σ} {es : List ε} (h : M.Throughout I s es) :
    I s := by
  cases es with
  | nil => exact h
  | cons e es => exact h.1

theorem Throughout.last {I : σ → Prop} {s s' : σ} {es : List ε} (h : M.Throughout I s es)
    (hexec : M.exec s es = some s') : I s' := by
  induction es generalizing s with
  | nil =>
    obtain rfl := Option.some.inj hexec
    exact h
  | cons e es ih =>
    rw [exec, Option.bind_eq_some_iff] at hexec
    obtain ⟨s₁, hstep, hrest⟩ := hexec
    exact ih (h.2 s₁ hstep) hrest

/-- `e` is taken in `s₁`, on the way from `s` along `es`. -/
def Taken (M : Machine σ ε) (s : σ) (es : List ε) (e : ε) (s₁ : σ) : Prop :=
  ∃ before after, es = before ++ e :: after ∧ M.exec s before = some s₁

theorem Taken.append {s s₁ : σ} {es : List ε} {e : ε} (h : M.Taken s es e s₁) (fs : List ε) :
    M.Taken s (es ++ fs) e s₁ := by
  obtain ⟨before, after, rfl, hexec⟩ := h
  exact ⟨before, after ++ fs, by simp, hexec⟩

theorem taken_last {s s₁ : σ} {es : List ε} (h : M.exec s es = some s₁) (e : ε) :
    M.Taken s (es ++ [e]) e s₁ :=
  ⟨es, [], rfl, h⟩

/-- **History rule.** The invariant may speak of the events that have led to a
state. -/
theorem exec_history {I : List ε → σ → Prop} {s : σ}
    (hstep : ∀ es s₁ e s₂, M.exec s es = some s₁ → I es s₁ → M.step s₁ e = some s₂ →
      I (es ++ [e]) s₂)
    {s' : σ} {es : List ε} (h : M.exec s es = some s') (h₀ : I [] s) : I es s' := by
  induction es using List.reverseRecOn generalizing s' with
  | nil =>
    obtain rfl := Option.some.inj h
    exact h₀
  | append_singleton es e ih =>
    rw [exec_append, Option.bind_eq_some_iff] at h
    obtain ⟨s₁, hbefore, hlast⟩ := h
    have htaken : M.step s₁ e = some s' := by
      rw [exec, Option.bind_eq_some_iff] at hlast
      obtain ⟨s₂, hs₂, hend⟩ := hlast
      obtain rfl := Option.some.inj hend
      exact hs₂
    exact hstep es s₁ e s' hbefore (ih hbefore) htaken

/-- **Projection rule.** Where every step of `M` is one of `N` or none to who sees
only `proj` of a state and `view` of an event, so is every run. -/
theorem exec_project {N : Machine τ δ} (proj : σ → τ) (view : ε → Option δ)
    (hstep : ∀ s e s', M.step s e = some s' →
      N.exec (proj s) (view e).toList = some (proj s'))
    {s s' : σ} {es : List ε} (h : M.exec s es = some s') :
    N.exec (proj s) (es.filterMap view) = some (proj s') := by
  induction es generalizing s with
  | nil =>
    obtain rfl := Option.some.inj h
    rfl
  | cons e es ih =>
    rw [exec, Option.bind_eq_some_iff] at h
    obtain ⟨s₁, hfirst, hrest⟩ := h
    have hsplit : (e :: es).filterMap view = (view e).toList ++ es.filterMap view := by
      rw [List.filterMap_cons]
      cases view e <;> rfl
    rw [hsplit, exec_append, hstep s e s₁ hfirst, Option.bind_some]
    exact ih hrest

/-- **Exactness rule.** Where each step out of an `I`-state leads to an `I`-state
exactly if it meets `C`, a run stays among them exactly if all its steps do. The
side condition `J` holds of every state anyway. -/
theorem throughout_iff_along {I J : σ → Prop}
    (hexact : ∀ s e s', J s → I s → M.step s e = some s' → (I s' ↔ C s e))
    (hJ : ∀ s e s', J s → M.step s e = some s' → J s')
    {s s' : σ} {es : List ε} (h : M.exec s es = some s') (hs : J s) (h₀ : I s) :
    M.Throughout I s es ↔ M.Along C s es := by
  induction es generalizing s with
  | nil => exact iff_of_true h₀ trivial
  | cons e es ih =>
    rw [exec, Option.bind_eq_some_iff] at h
    obtain ⟨s₁, hstep, hrest⟩ := h
    have hexact₁ : I s₁ ↔ C s e := hexact s e s₁ hs h₀ hstep
    have hih := ih hrest (hJ s e s₁ hs hstep)
    constructor
    · rintro ⟨-, hafter⟩
      have hthrough := hafter s₁ hstep
      refine ⟨hexact₁.mp hthrough.head, fun s₂ hstep₂ => ?_⟩
      obtain rfl := Option.some.inj (hstep.symm.trans hstep₂)
      exact (hih hthrough.head).mp hthrough
    · rintro ⟨hC, hafter⟩
      refine ⟨h₀, fun s₂ hstep₂ => ?_⟩
      obtain rfl := Option.some.inj (hstep.symm.trans hstep₂)
      exact (hih (hexact₁.mpr hC)).mpr (hafter s₁ hstep)

/-! ## Conditions that are computed -/

/-- `M` taking only the steps that meet `c`. -/
def restrict (M : Machine σ ε) (c : σ → ε → Bool) : Machine σ ε where
  Init := M.Init
  step s e := if c s e then M.step s e else none

/-- Its runs are the runs of `M` under `c`. -/
theorem Run.of_restrict {c : σ → ε → Bool} {s s' : σ}
    (h : Run (M.restrict c) always s s') : Run M (fun s e => c s e = true) s s' := by
  induction h with
  | refl => exact .refl
  | @tail s₁ s₂ e _ _ hs ih =>
    cases hc : c s₁ e with
    | false => simp [restrict, hc] at hs
    | true =>
      have hs' : M.step s₁ e = some s₂ := by simpa [restrict, hc] using hs
      exact .tail ih hc hs'

/-- A state that satisfies `p` and is reached by a list of events that meet
`c`. -/
theorem Reachable.of_restrict {c : σ → ε → Bool} {s₀ : σ} {es : List ε} {p : σ → Bool}
    (h₀ : M.Init s₀) (h : ((M.restrict c).exec s₀ es).map p = some true) :
    ∃ s, Reachable M (fun s e => c s e = true) s ∧ p s = true := by
  obtain ⟨s, ⟨s₁, h₁, hrun⟩, hp⟩ :=
    Reachable.of_exec (M := M.restrict c) (C := always) h₀ (fun _ _ _ => trivial) h
  exact ⟨s, ⟨s₁, h₁, hrun.of_restrict⟩, hp⟩

/-- `abs` maps every step of `M` that meets `C` in a state satisfying `I` to
zero or more steps of `N` that meet `D`. -/
structure Simulation (M : Machine σ ε) (C : σ → ε → Prop) (I : σ → Prop)
    (N : Machine τ δ) (D : τ → δ → Prop) (abs : σ → τ) : Prop where
  init : ∀ s, M.Init s → I s ∧ N.Init (abs s)
  step : ∀ s e s', I s → C s e → M.step s e = some s' →
    I s' ∧ Run N D (abs s) (abs s')

/-- **Simulation rule.** The image of a reachable state is reachable. -/
theorem Simulation.reachable {I : σ → Prop} {N : Machine τ δ} {E : τ → δ → Prop}
    {abs : σ → τ} (sim : Simulation M C I N E abs) {s : σ}
    (h : Reachable M C s) : I s ∧ Reachable N E (abs s) := by
  obtain ⟨s₀, h₀, hrun⟩ := h
  induction hrun with
  | refl =>
    obtain ⟨hI, hN⟩ := sim.init s₀ h₀
    exact ⟨hI, _, hN, .refl⟩
  | tail _ hC hs ih =>
    -- the run of `N` grows with the run of `M`, from one initial state of `N`
    obtain ⟨hI, t₀, ht₀, hrun'⟩ := ih
    obtain ⟨hI', hstep⟩ := sim.step _ _ _ hI hC hs
    exact ⟨hI', t₀, ht₀, hrun'.trans hstep⟩

end Machine

end SchedulingService
