import Mathlib.Data.Nat.Basic

/-!
# How long a text is

A text counted in characters of given weights: in UTF-16 code units, in bytes of
UTF-8, and in what the bytes exceed the units by.

Main result: `utf8_eq` — bytes are units and surplus.
-/

namespace SchedulingService.Lib.Encoding

/-- The weights of the characters, added up. -/
def weight (w : Char → Nat) (cs : List Char) : Nat := cs.foldr (fun c n => w c + n) 0

section Weights

variable {w : Char → Nat}

@[simp] theorem weight_nil : weight w [] = 0 := rfl

@[simp] theorem weight_cons (c : Char) (cs : List Char) : weight w (c :: cs) = w c + weight w cs :=
  rfl

@[simp] theorem weight_append (cs ds : List Char) :
    weight w (cs ++ ds) = weight w cs + weight w ds := by
  induction cs with
  | nil => exact (Nat.zero_add _).symm
  | cons c cs ih => rw [List.cons_append, weight_cons, ih, weight_cons, Nat.add_assoc]

theorem weight_replicate (n : Nat) (c : Char) : weight w (List.replicate n c) = n * w c := by
  induction n with
  | zero => exact (Nat.zero_mul _).symm
  | succ n ih => rw [List.replicate_succ, weight_cons, ih, Nat.succ_mul, Nat.add_comm]

/-- Weights of nothing. -/
theorem weight_eq_zero {cs : List Char} (h : ∀ c ∈ cs, w c = 0) : weight w cs = 0 := by
  induction cs with
  | nil => rfl
  | cons c cs ih =>
    rw [weight_cons, h c List.mem_cons_self, ih fun d hd => h d (List.mem_cons_of_mem _ hd)]

theorem weight_add {w₁ w₂ : Char → Nat} (h : ∀ c, w c = w₁ c + w₂ c) (cs : List Char) :
    weight w cs = weight w₁ cs + weight w₂ cs := by
  induction cs with
  | nil => rfl
  | cons c cs ih =>
    rw [weight_cons, weight_cons, weight_cons, ih, h c]
    omega

end Weights

/-! ## UTF-16 and UTF-8 -/

/-- UTF-16 code units. -/
def units (c : Char) : Nat := if c.toNat < 0x10000 then 1 else 2

/-- Bytes of UTF-8 beyond the code units. -/
def surplus (c : Char) : Nat := if c.toNat < 0x80 then 0 else if c.toNat < 0x800 then 1 else 2

theorem utf8Size_eq (c : Char) : c.utf8Size = units c + surplus c := by
  simp only [Char.utf8Size, UInt32.le_iff_toNat_le, UInt32.toNat_ofNatLT, ← Char.toNat_val, units,
    surplus]
  -- one of four ranges
  split_ifs <;> omega

theorem utf8ByteSize_eq (text : String) : text.utf8ByteSize = weight Char.utf8Size text.toList := by
  induction text using String.push_induction with
  | empty => rfl
  | push text c ih =>
    rw [String.utf8ByteSize_push, String.toList_push, weight_append, ih]
    rfl

/-- **Bytes** are units and surplus. -/
theorem utf8_eq (text : String) :
    text.utf8ByteSize = weight units text.toList + weight surplus text.toList := by
  rw [utf8ByteSize_eq, weight_add utf8Size_eq]

end SchedulingService.Lib.Encoding
