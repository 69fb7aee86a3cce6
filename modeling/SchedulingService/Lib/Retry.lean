import Mathlib.Logic.Basic

/-!
# Attempts under a budget

Something is attempted once, and again as long as the last attempt asks for it
and the budget of further attempts lasts.

* `Exhausts again extra n` — what it means that `n` is that number of attempts.
* `attempts` computes it (`attempts_spec`).
-/

namespace SchedulingService.Retry

/-- `n` attempts are made when attempt `k`, counted from zero, asks for another
exactly if `again k` and at most `extra` come after the first. -/
structure Exhausts (again : Nat → Bool) (extra n : Nat) : Prop where
  pos   : 0 < n
  le    : n ≤ extra + 1
  asked : ∀ k, k + 1 < n → again k = true
  stop  : n = extra + 1 ∨ again (n - 1) = false

/-- The number of attempts. -/
def attempts (again : Nat → Bool) : Nat → Nat
  | 0 => 1
  | extra + 1 => if again 0 then attempts (fun k => again (k + 1)) extra + 1 else 1

variable {again : Nat → Bool} {extra n : Nat}

/-- One attempt more in front of what the rest asks for. -/
theorem Exhausts.cons (hfirst : again 0 = true)
    (h : Exhausts (fun k => again (k + 1)) extra n) : Exhausts again (extra + 1) (n + 1) where
  pos := Nat.succ_pos n
  le := Nat.succ_le_succ h.le
  asked k hk := by
    cases k with
    | zero => exact hfirst
    | succ k => exact h.asked k (by omega)
  stop := by
    rcases h.stop with hall | hstop
    · exact .inl (by omega)
    · refine .inr ?_
      rwa [Nat.sub_add_cancel h.pos] at hstop

theorem attempts_spec (again : Nat → Bool) (extra : Nat) :
    Exhausts again extra (attempts again extra) := by
  induction extra generalizing again with
  | zero => exact ⟨Nat.one_pos, Nat.le_refl 1, fun k hk => absurd hk (by simp [attempts]), .inl rfl⟩
  | succ extra ih =>
    rw [attempts]
    split
    · rename_i hfirst
      exact Exhausts.cons hfirst (ih fun k => again (k + 1))
    · rename_i hfirst
      exact ⟨Nat.one_pos, by omega, fun k hk => by omega, .inr (by simpa using hfirst)⟩

end SchedulingService.Retry
