import SchedulingService.Lib.Numerals

/-!
# Percent-encoding

A text is encoded character by character: some characters are kept, of the others
every UTF-8 byte is written as `%` and two hexadecimal digits.

Main results:

* `encode_eq_self_iff` — which texts encoding leaves as they are;
* `eq_of_bytes_encode` — a text is told by the bytes that its encoding decodes to.
-/

namespace SchedulingService.Lib.PercentEncoding

open Lib.Numerals

/-- A hexadecimal digit in upper case. -/
def upperDigit (n : Nat) : Char := (Nat.digitChar n).toUpper

def encodeByte (b : UInt8) : List Char :=
  ['%', upperDigit (b.toNat / 16), upperDigit (b.toNat % 16)]

def encodeChar (keep : Char → Bool) (c : Char) : List Char :=
  if keep c then [c] else (String.utf8EncodeChar c).flatMap encodeByte

def encodeChars (keep : Char → Bool) (cs : List Char) : List Char := cs.flatMap (encodeChar keep)

def encode (keep : Char → Bool) (text : String) : String :=
  String.ofList (encodeChars keep text.toList)

/-- The bytes of a text, with every `%` and two digits read as one byte. -/
def bytes : List Char → List UInt8
  | '%' :: a :: b :: rest =>
    match nibble a, nibble b with
    | some x, some y => UInt8.ofNat (16 * x + y) :: bytes rest
    | _, _ => UInt8.ofNat '%'.toNat :: bytes (a :: b :: rest)
  | c :: rest => String.utf8EncodeChar c ++ bytes rest
  | [] => []

/-! ## What is left as it is -/

section Encode

variable {keep : Char → Bool}

theorem length_encodeByte (b : UInt8) : (encodeByte b).length = 3 := rfl

/-- A character that is encoded becomes longer. -/
theorem length_encodeChar (keep : Char → Bool) (c : Char) :
    1 ≤ (encodeChar keep c).length ∧ ((encodeChar keep c).length = 1 → keep c = true) := by
  unfold encodeChar
  split
  · exact ⟨Nat.le_refl _, fun _ => ‹_›⟩
  · have hpos : 0 < c.utf8Size := c.utf8Size_pos
    have hlength : ((String.utf8EncodeChar c).flatMap encodeByte).length = 3 * c.utf8Size := by
      simp [List.length_flatMap, length_encodeByte, Nat.mul_comm]
    rw [hlength]
    exact ⟨by omega, fun h => by omega⟩

theorem encodeChar_of_keep {c : Char} (h : keep c = true) : encodeChar keep c = [c] := if_pos h

theorem encodeChars_cons (c : Char) (cs : List Char) :
    encodeChars keep (c :: cs) = encodeChar keep c ++ encodeChars keep cs := rfl

theorem length_le_encodeChars (keep : Char → Bool) (cs : List Char) :
    cs.length ≤ (encodeChars keep cs).length := by
  induction cs with
  | nil => exact Nat.le_refl _
  | cons c cs ih =>
    have hc := (length_encodeChar keep c).1
    rw [encodeChars_cons, List.length_append, List.length_cons]
    omega

theorem encodeChars_eq_self_iff {cs : List Char} :
    encodeChars keep cs = cs ↔ ∀ c ∈ cs, keep c = true := by
  induction cs with
  | nil => simp [encodeChars]
  | cons c cs ih =>
    rw [encodeChars_cons, List.forall_mem_cons]
    constructor
    · intro h
      -- no character may become longer
      have hlength := congrArg List.length h
      rw [List.length_append, List.length_cons] at hlength
      have hrest := length_le_encodeChars keep cs
      have hfirst := length_encodeChar keep c
      have hkeep : keep c = true := hfirst.2 (by omega)
      rw [encodeChar_of_keep hkeep] at h
      exact ⟨hkeep, ih.mp (List.cons.inj h).2⟩
    · rintro ⟨hkeep, hrest⟩
      rw [encodeChar_of_keep hkeep, ih.mpr hrest, List.singleton_append]

/-- **Encoding changes nothing** in a text of characters that are kept, and in no
other. -/
theorem encode_eq_self_iff {text : String} :
    encode keep text = text ↔ ∀ c ∈ text.toList, keep c = true := by
  rw [← encodeChars_eq_self_iff, encode]
  constructor
  · intro h
    rw [← String.toList_inj, String.toList_ofList] at h
    exact h
  · intro h
    rw [h, String.ofList_toList]

/-! ## Decoding -/

theorem nibble_upperDigit : ∀ x < 16, nibble (upperDigit x) = some x := by decide

theorem bytes_encodeByte (b : UInt8) (rest : List Char) :
    bytes (encodeByte b ++ rest) = b :: bytes rest := by
  have hb : b.toNat < 256 := b.toNat_lt_size
  have hhigh := nibble_upperDigit (b.toNat / 16) (by omega)
  have hlow := nibble_upperDigit (b.toNat % 16) (by omega)
  have hwhole : 16 * (b.toNat / 16) + b.toNat % 16 = b.toNat := Nat.div_add_mod b.toNat 16
  simp only [encodeByte, List.cons_append, List.nil_append, bytes, hhigh, hlow, hwhole,
    UInt8.ofNat_toNat]

theorem bytes_encodeBytes (bs : List UInt8) (rest : List Char) :
    bytes (bs.flatMap encodeByte ++ rest) = bs ++ bytes rest := by
  induction bs with
  | nil => rfl
  | cons b bs ih =>
    rw [List.flatMap_cons, List.append_assoc, bytes_encodeByte, ih, List.cons_append]

theorem bytes_cons {c : Char} (hc : c ≠ '%') (rest : List Char) :
    bytes (c :: rest) = String.utf8EncodeChar c ++ bytes rest := by
  rw [bytes]
  exact fun _ _ _ h => absurd h hc

/-- **Decoding**, where `%` is not kept. -/
theorem bytes_encodeChars (hkeep : keep '%' = false) (cs : List Char) :
    bytes (encodeChars keep cs) = cs.flatMap String.utf8EncodeChar := by
  induction cs with
  | nil => rfl
  | cons c cs ih =>
    rw [encodeChars_cons, List.flatMap_cons, encodeChar]
    split
    · have hne : c ≠ '%' := by
        rintro rfl
        simp [hkeep] at *
      rw [List.singleton_append, bytes_cons hne, ih]
    · rw [bytes_encodeBytes, ih]

theorem flatMap_utf8EncodeChar (text : String) :
    text.toList.flatMap String.utf8EncodeChar = text.toByteArray.data.toList := by
  conv_rhs => rw [← String.ofList_toList (s := text)]
  rw [String.toByteArray_ofList, List.utf8Encode, List.toList_data_toByteArray]

/-- **The text is told** by the bytes its encoding stands for. -/
theorem eq_of_bytes_encode (hkeep : keep '%' = false) {text text' : String}
    (h : bytes (encode keep text).toList = text'.toList.flatMap String.utf8EncodeChar) :
    text = text' := by
  rw [encode, String.toList_ofList, bytes_encodeChars hkeep, flatMap_utf8EncodeChar,
    flatMap_utf8EncodeChar, Array.toList_inj] at h
  exact String.toByteArray_inj.mp (ByteArray.ext h)

/-- What an encoded text is made of. -/
theorem mem_encodeChars {cs : List Char} {c : Char} (h : c ∈ encodeChars keep cs) :
    keep c = true ∨ c = '%' ∨ ∃ x < 16, c = upperDigit x := by
  obtain ⟨d, -, hd⟩ := List.mem_flatMap.mp h
  unfold encodeChar at hd
  split at hd
  · obtain rfl := List.mem_singleton.mp hd
    exact .inl ‹_›
  · obtain ⟨b, -, hb⟩ := List.mem_flatMap.mp hd
    have hlt : b.toNat < 256 := b.toNat_lt_size
    simp only [encodeByte, List.mem_cons, List.not_mem_nil, or_false] at hb
    rcases hb with rfl | rfl | rfl
    · exact .inr (.inl rfl)
    · exact .inr (.inr ⟨_, by omega, rfl⟩)
    · exact .inr (.inr ⟨_, by omega, rfl⟩)

end Encode

end SchedulingService.Lib.PercentEncoding
