import Mathlib.Data.List.Basic
import Mathlib.Data.List.Induction

/-!
# Numerals

Texts that stand for numbers and bytes: decimal digits, and pairs of hexadecimal
digits. For both, what reading makes of a printed text, and which texts are
printed at all.

A reader of numbers may keep only so many leading bits of what the digits spell.
-/

namespace SchedulingService.Lib.Numerals

/-! ## Decimal digits -/

/-- The number that decimal digits spell. -/
def value (ds : List Char) : Nat := Nat.ofDigitChars 10 ds 0

/-- One digit or more. -/
def IsNumeral (ds : List Char) : Prop := ds ≠ [] ∧ ∀ c ∈ ds, c.isDigit = true

instance (ds : List Char) : Decidable (IsNumeral ds) :=
  inferInstanceAs (Decidable (_ ∧ _))

/-- No zero stands in front of another digit. -/
def Plain (ds : List Char) : Prop := ds.head? = some '0' → ds = ['0']

instance (ds : List Char) : Decidable (Plain ds) :=
  inferInstanceAs (Decidable (_ → _))

theorem value_toDigits (n : Nat) : value (Nat.toDigits 10 n) = n :=
  Nat.ofDigitChars_ten_toDigits

theorem toDigits_inj {m n : Nat} : Nat.toDigits 10 m = Nat.toDigits 10 n ↔ m = n := by
  constructor
  · intro h
    rw [← value_toDigits m, h, value_toDigits]
  · exact congrArg _

theorem isNumeral_toDigits (n : Nat) : IsNumeral (Nat.toDigits 10 n) :=
  ⟨Nat.toDigits_ne_nil, fun _ hc => Nat.isDigit_of_mem_toDigits (by decide) (by decide) hc⟩

theorem value_append_singleton (ds : List Char) (d : Char) :
    value (ds ++ [d]) = 10 * value ds + (d.toNat - 48) := by
  rw [value, Nat.ofDigitChars_append, Nat.ofDigitChars_cons, Nat.ofDigitChars_nil]
  rfl

/-- A digit is written by its own value. -/
theorem digitChar_of_isDigit {d : Char} (h : d.isDigit = true) :
    d.toNat - 48 < 10 ∧ Nat.digitChar (d.toNat - 48) = d := by
  rw [Char.isDigit, Bool.and_eq_true, decide_eq_true_eq, decide_eq_true_eq] at h
  have hlow : 48 ≤ d.toNat := h.1
  have hhigh : d.toNat ≤ 57 := h.2
  have hlt : d.toNat - 48 < 10 := by omega
  have hback := Nat.toNat_digitChar_of_lt_ten hlt
  refine ⟨hlt, Char.toNat_inj.mp ?_⟩
  omega

/-- The first digit of a number that is not zero is not a zero. -/
theorem head_toDigits {n : Nat} (h : 0 < n) : (Nat.toDigits 10 n).head? ≠ some '0' := by
  induction n using Nat.strongRecOn with
  | ind n ih =>
    by_cases hlt : n < 10
    · rw [Nat.toDigits_of_lt_base hlt, List.head?_cons]
      intro heq
      have hzero : n = 0 := Nat.digitChar_eq_zero.mp (Option.some.inj heq)
      omega
    · rw [Nat.toDigits_of_base_le (by decide) (by omega),
        List.head?_append_of_ne_nil _ Nat.toDigits_ne_nil]
      exact ih (n / 10) (by omega) (by omega)

theorem plain_toDigits (n : Nat) : Plain (Nat.toDigits 10 n) := by
  intro h
  by_cases hn : n = 0
  · rw [hn, Nat.toDigits_zero]
  · exact absurd h (head_toDigits (by omega))

/-- Only zeros spell zero. -/
theorem value_pos {ds : List Char} (hd : ∀ c ∈ ds, c.isDigit = true) {c : Char} (hc : c ∈ ds)
    (hne : c ≠ '0') : 0 < value ds := by
  induction ds using List.reverseRecOn with
  | nil => cases hc
  | append_singleton ds d ih =>
    rw [value_append_singleton]
    rcases List.mem_append.mp hc with h | h
    · have hpos := ih (fun c hc => hd c (List.mem_append_left _ hc)) h
      omega
    · obtain rfl : c = d := List.mem_singleton.mp h
      obtain ⟨-, hdigit⟩ := digitChar_of_isDigit (hd c (List.mem_append_right _ h))
      have hsub : c.toNat - 48 ≠ 0 := fun hzero => hne (by rw [← hdigit, hzero]; rfl)
      omega

/-- Digits without a superfluous zero are the digits of their value. -/
theorem toDigits_value {ds : List Char} (hds : IsNumeral ds) (hplain : Plain ds) :
    Nat.toDigits 10 (value ds) = ds := by
  obtain ⟨hne, hd⟩ := hds
  induction ds using List.reverseRecOn with
  | nil => exact absurd rfl hne
  | append_singleton ds d ih =>
    obtain ⟨hlt, hdigit⟩ := digitChar_of_isDigit (hd d (by simp))
    have hds : ∀ c ∈ ds, c.isDigit = true := fun c hc => hd c (List.mem_append_left _ hc)
    rw [value_append_singleton]
    cases ds with
    | nil =>
      have hvalue : 10 * value [] + (d.toNat - 48) = d.toNat - 48 := by
        rw [show value [] = 0 from rfl]
        omega
      rw [hvalue, Nat.toDigits_of_lt_base hlt, hdigit]
      rfl
    | cons c ds =>
      -- the first digit is not a zero, so what precedes the last one is plain and positive
      have hfirst : c ≠ '0' := by
        rintro rfl
        have hone := congrArg List.length (hplain rfl)
        simp at hone
      have hplain' : Plain (c :: ds) := fun h => absurd (Option.some.inj h) hfirst
      have hrest := ih hplain' (List.cons_ne_nil c ds) hds
      have hpos : 0 < value (c :: ds) := value_pos hds List.mem_cons_self hfirst
      rw [← Nat.toDigits_append_toDigits (by decide) hpos hlt, hrest,
        Nat.toDigits_of_lt_base hlt, hdigit]

/-- The last `k` decimal digits, with zeros in front. -/
def padded : Nat → Nat → List Char
  | 0, _ => []
  | k + 1, n => padded k (n / 10) ++ [Nat.digitChar (n % 10)]

/-- Digits are the padded digits of their value. -/
theorem padded_value {ds : List Char} (hd : ∀ c ∈ ds, c.isDigit = true) :
    padded ds.length (value ds) = ds := by
  induction ds using List.reverseRecOn with
  | nil => rfl
  | append_singleton ds d ih =>
    obtain ⟨hlt, hdigit⟩ := digitChar_of_isDigit (hd d (by simp))
    have hrest := ih fun c hc => hd c (List.mem_append_left _ hc)
    have hdiv : (10 * value ds + (d.toNat - 48)) / 10 = value ds := by omega
    have hmod : (10 * value ds + (d.toNat - 48)) % 10 = d.toNat - 48 := by omega
    rw [value_append_singleton, List.length_append, List.length_singleton, padded, hdiv, hmod,
      hrest, hdigit]

/-- A number of few digits is less than their power of ten. -/
theorem value_lt {ds : List Char} (hd : ∀ c ∈ ds, c.isDigit = true) :
    value ds < Nat.pow 10 ds.length := by
  induction ds using List.reverseRecOn with
  | nil => decide
  | append_singleton ds d ih =>
    obtain ⟨hlt, -⟩ := digitChar_of_isDigit (hd d (by simp))
    have hrest := ih fun c hc => hd c (List.mem_append_left _ hc)
    have hpow : Nat.pow 10 (ds.length + 1) = Nat.pow 10 ds.length * 10 := rfl
    rw [value_append_singleton, List.length_append, List.length_singleton, hpow]
    omega

/-! ## Leading bits -/

/-- `n` to `p` significant bits: to the nearest such number, and between two of
them to the one with an even last bit. -/
def nearest (p n : Nat) : Nat :=
  let unit := Nat.pow 2 (n.log2 + 1 - p)
  let q := n / unit
  let r := n % unit
  if 2 * r < unit ∨ 2 * r = unit ∧ q % 2 = 0 then q * unit else (q + 1) * unit

/-- Numbers of at most `p` bits are kept. -/
theorem nearest_of_lt {p n : Nat} (hp : 0 < p) (h : n < Nat.pow 2 p) : nearest p n = n := by
  have hunit : n.log2 + 1 - p = 0 := by
    by_cases hn : n = 0
    · rw [hn, Nat.log2_zero]
      omega
    · have hlog : n.log2 < p := (Nat.log2_lt hn).mpr h
      omega
  have hkept : 2 * (n % 1) < 1 := by omega
  rw [nearest, hunit, show Nat.pow 2 0 = 1 from rfl, if_pos (.inl hkept), Nat.div_one, Nat.mul_one]

/-- A number of more bits is not rounded below them. -/
theorem le_nearest {p n : Nat} (hp : 0 < p) (h : Nat.pow 2 p ≤ n) :
    Nat.pow 2 p ≤ nearest p n := by
  have hpos : n ≠ 0 := by
    have htwo : 0 < Nat.pow 2 p := Nat.pow_pos (by decide)
    omega
  have hlog : p ≤ n.log2 := (Nat.le_log2 hpos).mpr h
  have htop : Nat.pow 2 n.log2 ≤ n := (Nat.le_log2 hpos).mp (Nat.le_refl _)
  -- the kept bits alone are already a number with `p` of them
  have hsplit : Nat.pow 2 n.log2 = Nat.pow 2 (p - 1) * Nat.pow 2 (n.log2 + 1 - p) := by
    have hsum : n.log2 = (p - 1) + (n.log2 + 1 - p) := by omega
    calc Nat.pow 2 n.log2 = Nat.pow 2 ((p - 1) + (n.log2 + 1 - p)) := congrArg _ hsum
      _ = Nat.pow 2 (p - 1) * Nat.pow 2 (n.log2 + 1 - p) := Nat.pow_add 2 _ _
  have hbits : Nat.pow 2 p ≤ Nat.pow 2 n.log2 := Nat.pow_le_pow_right (by decide) hlog
  have hunit : 0 < Nat.pow 2 (n.log2 + 1 - p) := Nat.pow_pos (by decide)
  have hkept : Nat.pow 2 (p - 1) ≤ n / Nat.pow 2 (n.log2 + 1 - p) :=
    (Nat.le_div_iff_mul_le hunit).mpr (by rw [← hsplit]; exact htop)
  have hdown : Nat.pow 2 p ≤
      n / Nat.pow 2 (n.log2 + 1 - p) * Nat.pow 2 (n.log2 + 1 - p) := by
    calc Nat.pow 2 p ≤ Nat.pow 2 (p - 1) * Nat.pow 2 (n.log2 + 1 - p) := hsplit ▸ hbits
      _ ≤ _ := Nat.mul_le_mul_right _ hkept
  rw [nearest]
  split
  · exact hdown
  · exact Nat.le_trans hdown (Nat.mul_le_mul_right _ (Nat.le_succ _))

/-- What is rounded to a number of at most `p` bits was that number. -/
theorem eq_of_nearest_lt {p n : Nat} (hp : 0 < p) (h : nearest p n < Nat.pow 2 p) :
    n = nearest p n := by
  by_cases hn : n < Nat.pow 2 p
  · exact (nearest_of_lt hp hn).symm
  · have hle := le_nearest hp (Nat.le_of_not_lt hn)
    omega

/-! ## Pairs of hexadecimal digits -/

/-- The character class `[0-9a-f]`. -/
def isHexDigit (c : Char) : Bool := c.isDigit || 'a' ≤ c && c ≤ 'f'

/-- What one hexadecimal digit stands for, in either case. -/
def nibble (c : Char) : Option Nat :=
  if c.isDigit then some (c.toNat - 48)
  else if 'a' ≤ c ∧ c ≤ 'f' then some (c.toNat - 87)
  else if 'A' ≤ c ∧ c ≤ 'F' then some (c.toNat - 55)
  else none

/-- Two digits a byte, the high half first. -/
def hexChars (bs : List UInt8) : List Char :=
  bs.flatMap fun b => [Nat.digitChar (b.toNat / 16), Nat.digitChar (b.toNat % 16)]

/-- The bytes of the pairs up to the first that is not two digits; what is left of
a pair is dropped. -/
def hexBytes : List Char → List UInt8
  | a :: b :: rest =>
    match nibble a, nibble b with
    | some x, some y => UInt8.ofNat (16 * x + y) :: hexBytes rest
    | _, _ => []
  | _ => []

theorem nibble_digitChar : ∀ x < 16, nibble (Nat.digitChar x) = some x := by decide

theorem isHexDigit_digitChar : ∀ x < 16, isHexDigit (Nat.digitChar x) = true := by decide

/-- A digit of the class is the one that its value is written with. -/
theorem nibble_of_isHexDigit {c : Char} (h : isHexDigit c = true) :
    ∃ x < 16, nibble c = some x ∧ Nat.digitChar x = c := by
  by_cases hd : c.isDigit = true
  · obtain ⟨hlt, hdigit⟩ := digitChar_of_isDigit hd
    exact ⟨c.toNat - 48, by omega, if_pos hd, hdigit⟩
  · rw [isHexDigit, Bool.or_eq_true, Bool.and_eq_true, decide_eq_true_eq,
      decide_eq_true_eq] at h
    have hletter := h.resolve_left hd
    have hlow : 97 ≤ c.toNat := hletter.1
    have hhigh : c.toNat ≤ 102 := hletter.2
    have hback : ∀ x < 16, 10 ≤ x → (Nat.digitChar x).toNat = 87 + x := by decide
    refine ⟨c.toNat - 87, by omega, ?_, Char.toNat_inj.mp ?_⟩
    · rw [nibble, if_neg hd, if_pos hletter]
    · rw [hback _ (by omega) (by omega)]
      omega

theorem length_hexChars (bs : List UInt8) : (hexChars bs).length = 2 * bs.length := by
  induction bs with
  | nil => rfl
  | cons b bs ih =>
    rw [hexChars, List.flatMap_cons, List.length_append, ← hexChars, ih, List.length_cons,
      List.length_cons, List.length_cons, List.length_nil]
    omega

theorem isHexDigit_of_mem_hexChars {bs : List UInt8} {c : Char} (hc : c ∈ hexChars bs) :
    isHexDigit c = true := by
  obtain ⟨b, -, hb⟩ := List.mem_flatMap.mp hc
  have hlt := b.toNat_lt
  rcases List.mem_cons.mp hb with rfl | hb
  · exact isHexDigit_digitChar _ (by omega)
  · obtain rfl := List.mem_singleton.mp hb
    exact isHexDigit_digitChar _ (by omega)

/-- Bytes are read back from what they are written as. -/
theorem hexBytes_hexChars (bs : List UInt8) : hexBytes (hexChars bs) = bs := by
  induction bs with
  | nil => rfl
  | cons b bs ih =>
    have hlt := b.toNat_lt
    have hsum : 16 * (b.toNat / 16) + b.toNat % 16 = b.toNat := by omega
    rw [hexChars, List.flatMap_cons, ← hexChars, List.cons_append, List.cons_append,
      List.nil_append, hexBytes, nibble_digitChar _ (by omega), nibble_digitChar _ (by omega)]
    simp only [ih, hsum, UInt8.ofNat_toNat]

/-- Digits are written back without the one that was left of a pair. -/
theorem hexChars_hexBytes {ds : List Char} (hds : ∀ c ∈ ds, isHexDigit c = true) :
    hexChars (hexBytes ds) = ds.take (2 * (ds.length / 2)) := by
  induction ds using hexBytes.induct with
  | case1 a b rest x y hy hx ih =>
    obtain ⟨u, hu, hau, ha⟩ := nibble_of_isHexDigit (hds a (by simp))
    obtain ⟨v, hv, hbv, hb⟩ := nibble_of_isHexDigit (hds b (by simp))
    obtain rfl : u = x := Option.some.inj (hau.symm.trans hx)
    obtain rfl : v = y := Option.some.inj (hbv.symm.trans hy)
    have hrest := ih fun c hc => hds c (List.mem_cons_of_mem _ (List.mem_cons_of_mem _ hc))
    -- the byte of the pair has the two digits as its halves
    have hbyte : (UInt8.ofNat (16 * u + v)).toNat = 16 * u + v :=
      UInt8.toNat_ofNat_of_lt (by rw [UInt8.size]; omega)
    have hlength : 2 * ((a :: b :: rest).length / 2) = 2 * (rest.length / 2) + 1 + 1 := by
      simp only [List.length_cons]
      omega
    rw [hexBytes, hx, hy, hlength, List.take_succ_cons, List.take_succ_cons, ← hrest]
    simp only [hexChars, List.flatMap_cons, hbyte, List.cons_append, List.nil_append]
    rw [show (16 * u + v) / 16 = u by omega, show (16 * u + v) % 16 = v by omega, ha, hb]
  | case2 a b rest hno =>
    obtain ⟨u, hu, hau, ha⟩ := nibble_of_isHexDigit (hds a (by simp))
    obtain ⟨v, hv, hbv, hb⟩ := nibble_of_isHexDigit (hds b (by simp))
    exact absurd hbv (hno u v hau)
  | case3 ds hshort =>
    have hlt : ds.length < 2 := by
      rcases ds with - | ⟨a, - | ⟨b, rest⟩⟩
      · decide
      · exact Nat.lt_succ_self _
      · exact absurd rfl (hshort a b rest)
    rw [show ds.length / 2 = 0 by omega, hexBytes]
    · rfl
    · exact hshort

/-- A text of the class is the one its bytes are written as exactly if no digit is
left of a pair. -/
theorem hexChars_hexBytes_iff {ds : List Char} (hds : ∀ c ∈ ds, isHexDigit c = true) :
    hexChars (hexBytes ds) = ds ↔ ds.length % 2 = 0 := by
  rw [hexChars_hexBytes hds]
  constructor
  · intro h
    have hlength := congrArg List.length h
    rw [List.length_take] at hlength
    omega
  · intro h
    exact List.take_of_length_le (by omega)

end SchedulingService.Lib.Numerals
