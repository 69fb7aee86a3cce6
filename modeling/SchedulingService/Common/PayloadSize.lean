import SchedulingService.Common.Decorators
import SchedulingService.Js.Json

/-!
# The size of a payload

`MaxJsonSizeConstraint` compares the length of the text of a payload with
`MAX_PAYLOAD_BYTES`. The length is in UTF-16 code units, and the text is stored
and queued in UTF-8.

Main result: `maxJsonSize_iff_bytes` — for which payloads it bounds the bytes.
-/

namespace SchedulingService.Common

open Js Lib.Encoding

theorem utf16Length_eq (text : String) : utf16Length text = weight units text.toList := by
  have hfold : ∀ (cs : List Char) (n : Nat),
      cs.foldl (fun n c => n + if c.toNat < 0x10000 then 1 else 2) n = n + weight units cs := by
    intro cs
    induction cs with
    | nil => exact fun n => rfl
    | cons c cs ih =>
      intro n
      rw [List.foldl_cons, ih, weight_cons, units, Nat.add_assoc]
  rw [utf16Length, hfold, Nat.zero_add]

/-- The code units of the text of a value, from its parts. -/
def unitsOf (T : Texts) (v : Value) : Nat := (size T units v).getD 0

section Bytes

variable {V : Validators} {T : Texts} {v : Value}

theorem exists_stringify (hv : v ≠ .undefined) : ∃ text, stringify T v = some text := by
  cases v with
  | undefined => exact absurd rfl hv
  | num n => cases n <;> exact ⟨_, rfl⟩
  | date d => cases d <;> exact ⟨_, rfl⟩
  | null | bool | str | arr | obj => exact ⟨_, rfl⟩

/-- What the constraint compares. -/
theorem maxJsonSize_eq (hV : V.stringify = stringify T) (hv : v ≠ .undefined) :
    maxJsonSize V v = decide (unitsOf T v ≤ maxPayloadBytes) := by
  obtain ⟨text, htext⟩ := exists_stringify (T := T) hv
  rw [maxJsonSize, hV, htext, unitsOf, (utf8_stringify htext).1, Option.getD_some]
  dsimp only
  rw [utf16Length_eq]

/-- **Bytes.** The constraint accepts a value exactly if its text fits in 8192
bytes, unless the text fits in as many code units and the surplus of its strings
and keys leads past the bound. -/
theorem maxJsonSize_iff_bytes (hV : V.stringify = stringify T) (hv : v ≠ .undefined) :
    (∃ text, stringify T v = some text ∧
      (maxJsonSize V v = true ↔ text.utf8ByteSize ≤ maxPayloadBytes)) ↔
      (maxPayloadBytes < unitsOf T v ∨ unitsOf T v + surplusOf v ≤ maxPayloadBytes) := by
  obtain ⟨text, htext⟩ := exists_stringify (T := T) hv
  obtain ⟨hunits, hbytes⟩ := utf8_stringify htext
  have hsize : unitsOf T v = weight units text.toList := by rw [unitsOf, hunits, Option.getD_some]
  have hagree : (maxJsonSize V v = true ↔ text.utf8ByteSize ≤ maxPayloadBytes) ↔
      (maxPayloadBytes < unitsOf T v ∨ unitsOf T v + surplusOf v ≤ maxPayloadBytes) := by
    rw [maxJsonSize_eq hV hv, decide_eq_true_eq, hbytes, ← hsize]
    omega
  rw [← hagree]
  -- there is only one text
  constructor
  · rintro ⟨text', htext', h⟩
    obtain rfl : text = text' := Option.some.inj (htext.symm.trans htext')
    exact h
  · exact fun h => ⟨text, htext, h⟩

end Bytes

def sampleTexts : Texts where
  number _ := "0"
  isoString _ := "1970-01-01T00:00:00.000Z"
  ascii_number _ := ascii_of_all (by decide)
  ascii_isoString _ := ascii_of_all (by decide)

def sampleValidators : Validators where
  isUuid _ := true
  stringify := stringify sampleTexts

/-- A payload with 8181 letters with an accent is accepted and takes 16373 bytes. -/
theorem maxJsonSize_accents :
    let v : Value := .obj [("note", .str (String.ofList (List.replicate 8181 'é')))]
    maxJsonSize sampleValidators v = true ∧
      ∃ text, stringify sampleTexts v = some text ∧ text.utf8ByteSize = 16373 := by
  intro v
  have hv : v ≠ .undefined := fun h => Value.noConfusion h
  -- nothing of it is escaped
  have hplain : ∀ n, (List.replicate n 'é').flatMap escape = List.replicate n 'é' := by
    intro n
    induction n with
    | zero => rfl
    | succ n ih =>
      rw [List.replicate_succ, List.flatMap_cons, ih]
      rfl
  have hquote : quote (String.ofList (List.replicate 8181 'é')).toList =
      '"' :: List.replicate 8181 'é' ++ ['"'] := by
    rw [quote, String.toList_ofList, hplain]
  have hunits : unitsOf sampleTexts v = 8192 := by
    rw [unitsOf, size, memberSizes, size, hquote, memberSizes, weight_append, weight_cons,
      weight_replicate]
    rfl
  -- and each letter takes a byte more than its code unit
  have hsurplus : surplusOf v = 8181 := by
    have hlist := String.toList_ofList (l := List.replicate 8181 'é')
    rw [surplusOf, surplusOfMembers, surplusOf, surplusOfMembers, hlist, weight_replicate]
    · rfl
    · exact fun h => Value.noConfusion h
  obtain ⟨text, htext⟩ := exists_stringify (T := sampleTexts) hv
  obtain ⟨hsize, hbytes⟩ := utf8_stringify htext
  refine ⟨?_, text, htext, ?_⟩
  · rw [maxJsonSize_eq rfl hv, hunits]
    rfl
  · rw [unitsOf, hsize, Option.getD_some] at hunits
    rw [hbytes, hunits, hsurplus]

theorem maxJsonSize_sample :
    let v : Value := .obj [("name", .str "été"), ("tags", .arr [.null, .undefined])]
    ∃ text, stringify sampleTexts v = some text ∧
      (maxJsonSize sampleValidators v = true ↔ text.utf8ByteSize ≤ maxPayloadBytes) :=
  (maxJsonSize_iff_bytes rfl (by simp)).mpr (by decide)

end SchedulingService.Common
