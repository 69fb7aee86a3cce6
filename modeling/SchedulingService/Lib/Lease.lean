import Mathlib.Logic.Function.Basic
import SchedulingService.Lib.Transition

/-!
# A lease on a key-value server

The lock protocol `SET key value NX EX ttl` / compare-and-delete, for holders
`τ` that sign the key with an owner name in `ω`. The server stores only the
name and the expiry; `setBy` records, for the statements below, which holder's
SET created the key.

A *lease* is what the protocol is for: once a holder's SET succeeded at time
`T`, no other holder's SET succeeds before `T + ttl` unless the first one has
released. Whether it holds turns on the owner names:

* `lease_exclusive` — it holds in every run in which nobody releases while the
  live key carries the releasing holder's name and was set by another one, hence
  in every run where each holder has a name of its own;
* `compareAndDelete_eq_self_iff` — such a release is what deletes the key of
  another holder, whether or not that one is still inside its lease.
-/

namespace SchedulingService.Lease

/-- The key as stored: the owner's name, the instant it expires, and (not
stored, for statements only) the holder whose SET created it. -/
structure Key (τ ω : Type*) where
  value : ω
  expiresAt : Int
  setBy : τ
  deriving DecidableEq

variable {τ ω : Type*}

/-- The key as a command at time `now` sees it: an expired key is absent. -/
def liveKey (now : Int) (key : Option (Key τ ω)) : Option (Key τ ω) :=
  key.filter fun k => decide (now < k.expiresAt)

/-- `SET key value NX EX ttl`: the new key if none is live, `none` otherwise. -/
def setNX (now : Int) (ttl : Nat) (value : ω) (t : τ) (key : Option (Key τ ω)) :
    Option (Key τ ω) :=
  match liveKey now key with
  | some _ => none
  | none => some ⟨value, now + ttl, t⟩

/-- Compare-and-delete: the live key is removed if it carries `value`. -/
def compareAndDelete [DecidableEq ω] (now : Int) (value : ω)
    (key : Option (Key τ ω)) : Option (Key τ ω) :=
  match liveKey now key with
  | some k => if k.value = value then none else key
  | none => key

theorem liveKey_eq_some {now : Int} {key : Option (Key τ ω)} {k : Key τ ω} :
    liveKey now key = some k ↔ key = some k ∧ now < k.expiresAt := by
  rw [liveKey, Option.filter_eq_some_iff, decide_eq_true_eq]

theorem setNX_eq_some {now : Int} {ttl : Nat} {value : ω} {t : τ}
    {key : Option (Key τ ω)} {k : Key τ ω} :
    setNX now ttl value t key = some k ↔
      liveKey now key = none ∧ k = ⟨value, now + ttl, t⟩ := by
  unfold setNX
  cases liveKey now key with
  | none => simp [eq_comm]
  | some k' => simp

/-- A key survives a compare-and-delete exactly if it has expired or is signed with
another name. -/
theorem compareAndDelete_eq_self_iff [DecidableEq ω] {now : Int} {value : ω}
    {k : Key τ ω} :
    compareAndDelete now value (some k) = some k ↔
      (now < k.expiresAt → k.value ≠ value) := by
  unfold compareAndDelete
  cases hl : liveKey now (some k) with
  | none =>
    refine iff_of_true rfl fun hlt => ?_
    rw [liveKey_eq_some.mpr ⟨rfl, hlt⟩] at hl
    cases hl
  | some k' =>
    obtain ⟨hk, hlt⟩ := liveKey_eq_some.mp hl
    obtain rfl := Option.some.inj hk
    simp [hlt]

/-! ## The protocol as a machine -/

/-- Server and holders: the key, when each holder's SET succeeded, and which
holders have called release. -/
structure State (τ ω : Type*) where
  now : Int
  key : Option (Key τ ω)
  since : τ → Option Int
  released : τ → Bool

/-- `acquireLost` is a SET that took effect but whose answer never came back;
`releaseLost` a release that never reached the server. -/
inductive Event (τ : Type*)
  | elapse (ms : Nat)
  | acquire (t : τ)
  | acquireLost (t : τ)
  | release (t : τ)
  | releaseLost (t : τ)

/-- `t` is inside its lease: its SET succeeded less than `ttl` ago and it has
not called release. -/
def Holds (ttl : Nat) (s : State τ ω) (t : τ) : Prop :=
  ∃ T, s.since t = some T ∧ s.released t = false ∧ s.now < T + ttl

/-- The invariant: a holder inside its lease is the one whose key is stored. -/
def KeyIsHolders (ttl : Nat) (owner : τ → ω) (s : State τ ω) : Prop :=
  ∀ t T, s.since t = some T → s.released t = false → s.now < T + ttl →
    s.key = some ⟨owner t, T + ttl, t⟩

/-- Nobody releases while the live key carries its name and was set by another
holder. -/
def OwnKeyOnly (owner : τ → ω) (s : State τ ω) : Event τ → Prop
  | .release t => ∀ k, liveKey s.now s.key = some k → k.value = owner t → k.setBy = t
  | _ => True

variable {ttl : Nat} {owner : τ → ω}

/-- No SET can succeed while some holder is inside its lease. -/
theorem setNX_none_of_holds {s : State τ ω} (hI : KeyIsHolders ttl owner s)
    {t t' : τ} (h : Holds ttl s t) : setNX s.now ttl (owner t') t' s.key = none := by
  obtain ⟨T, hT, hrel, hlt⟩ := h
  have hkey := hI t T hT hrel hlt
  have hlive : liveKey s.now s.key = some ⟨owner t, T + ttl, t⟩ :=
    liveKey_eq_some.mpr ⟨hkey, hlt⟩
  rw [setNX, hlive]

variable [DecidableEq τ] [DecidableEq ω]

def step (ttl : Nat) (owner : τ → ω) (s : State τ ω) : Event τ → Option (State τ ω)
  | .elapse ms => some { s with now := s.now + ms }
  | .acquire t =>
    -- a holder is one acquisition: it sets the key once at most
    match s.since t, setNX s.now ttl (owner t) t s.key with
    | none, some k =>
      some { s with key := some k, since := Function.update s.since t (some s.now) }
    | _, _ => none
  | .acquireLost t =>
    match s.since t, setNX s.now ttl (owner t) t s.key with
    -- the holder never learns of its lease, so it is not inside one
    | none, some k => some { s with key := some k }
    | _, _ => none
  | .release t =>
    some { s with
      key := compareAndDelete s.now (owner t) s.key
      released := Function.update s.released t true }
  | .releaseLost t => some { s with released := Function.update s.released t true }

def machine (ttl : Nat) (owner : τ → ω) : Machine (State τ ω) (Event τ) where
  Init s := ∀ t, s.since t = none
  step := step ttl owner

theorem keyIsHolders_step {s s' : State τ ω} {e : Event τ}
    (hI : KeyIsHolders ttl owner s) (hC : OwnKeyOnly owner s e)
    (hs : step ttl owner s e = some s') : KeyIsHolders ttl owner s' := by
  intro u U hU hrel hlt
  cases e with
  | elapse ms =>
    obtain rfl := Option.some.inj hs
    -- who is still inside its lease now was so before the time passed
    exact hI u U hU hrel (by simp only at hlt; omega)
  | acquire t =>
    rw [step] at hs
    split at hs
    · rename_i k hnone hk
      obtain rfl := Option.some.inj hs
      by_cases hut : u = t
      · subst hut
        simp only [Function.update_self, Option.some.injEq] at hU
        obtain ⟨-, rfl⟩ := setNX_eq_some.mp hk
        rw [hU]
      · -- another holder inside its lease would have kept the SET from succeeding
        simp only [Function.update_of_ne hut] at hU
        rw [setNX_none_of_holds hI ⟨U, hU, hrel, hlt⟩] at hk
        exact absurd hk (by simp)
    · exact absurd hs (by simp)
  | acquireLost t =>
    rw [step] at hs
    split at hs
    · rename_i k hnone hk
      obtain rfl := Option.some.inj hs
      -- nor could this one have succeeded
      rw [setNX_none_of_holds hI ⟨U, hU, hrel, hlt⟩] at hk
      exact absurd hk (by simp)
    · exact absurd hs (by simp)
  | release t =>
    obtain rfl := Option.some.inj hs
    by_cases hut : u = t
    · subst hut
      simp at hrel
    · simp only [Function.update_of_ne hut] at hrel
      have hkey := hI u U hU hrel hlt
      -- by `OwnKeyOnly` the script compares with another name
      rw [hkey]
      refine compareAndDelete_eq_self_iff.mpr fun hlive hname => hut ?_
      exact hC _ (liveKey_eq_some.mpr ⟨hkey, hlive⟩) hname
  | releaseLost t =>
    obtain rfl := Option.some.inj hs
    by_cases hut : u = t
    · subst hut
      simp at hrel
    · simp only [Function.update_of_ne hut] at hrel
      exact hI u U hU hrel hlt

theorem keyIsHolders_of_reachable {s : State τ ω}
    (h : (machine ttl owner).Reachable (OwnKeyOnly owner) s) :
    KeyIsHolders ttl owner s :=
  h.invariant (fun s h₀ t T hT => by rw [h₀ t] at hT; exact absurd hT (by simp))
    fun _ _ _ hI hC hs => keyIsHolders_step hI hC hs

/-- **The lease.** In every run in which nobody releases while the live key carries
its name and was set by another holder, a SET succeeds only when no other holder is
inside its lease. -/
theorem lease_exclusive {s : State τ ω}
    (h : (machine ttl owner).Reachable (OwnKeyOnly owner) s) {t t' : τ}
    (hhold : Holds ttl s t) : setNX s.now ttl (owner t') t' s.key = none :=
  setNX_none_of_holds (keyIsHolders_of_reachable h) hhold

end SchedulingService.Lease
