import SchedulingService.Js.Value
import SchedulingService.Lib.Encoding

/-!
# `JSON.stringify`

The text of a value, and how long it is. The texts of numbers and dates are the
language's own; all that matters here is that they are ASCII.

Main results:

* `weight_stringify` — the size of the text is the sum over the value's parts;
* `utf8_stringify` — its bytes are its code units and the surplus of the characters
  in the value's strings and keys.
-/

namespace SchedulingService.Js

open Lib.Encoding

/-- `String(n)` of a finite number and `toISOString()` of a valid date. -/
structure Texts where
  number : ℚ → String
  isoString : Int → String
  ascii_number : ∀ q, ∀ c ∈ (number q).toList, c.toNat < 0x80
  ascii_isoString : ∀ t, ∀ c ∈ (isoString t).toList, c.toNat < 0x80

/-! ## Strings -/

/-- `\\uXXXX` for a control character. -/
def unicodeEscape (c : Char) : List Char :=
  ['\\', 'u', '0', '0', Nat.digitChar (c.toNat / 16), Nat.digitChar (c.toNat % 16)]

/-- One character between the quotes. -/
def escape (c : Char) : List Char :=
  if c = '"' then ['\\', '"']
  else if c = '\\' then ['\\', '\\']
  else if c.toNat = 0x08 then ['\\', 'b']
  else if c.toNat = 0x0c then ['\\', 'f']
  else if c = '\n' then ['\\', 'n']
  else if c = '\r' then ['\\', 'r']
  else if c = '\t' then ['\\', 't']
  else if c.toNat < 0x20 then unicodeEscape c
  else [c]

def quote (s : List Char) : List Char := '"' :: s.flatMap escape ++ ['"']

/-! ## Values -/

section Stringify

variable (T : Texts)

/-- Texts with commas between them. -/
def separated : List (List Char) → List Char
  | [] => []
  | [text] => text
  | text :: rest => text ++ ',' :: separated rest

mutual

/-- The text of a value; `none` is `undefined`. -/
def stringifyChars : Value → Option (List Char)
  | .undefined => none
  | .null => some "null".toList
  | .bool b => some (if b then "true".toList else "false".toList)
  | .num (.fin q) => some (T.number q).toList
  | .num _ => some "null".toList
  | .str s => some (quote s.toList)
  -- through `toJSON`
  | .date (.ms t) => some (quote (T.isoString t).toList)
  | .date .invalid => some "null".toList
  | .arr xs => some ('[' :: separated (elements xs) ++ [']'])
  | .obj props => some ('{' :: separated (members props) ++ ['}'])

def elements : List Value → List (List Char)
  | [] => []
  | x :: xs => (stringifyChars x).getD "null".toList :: elements xs

/-- A property that is `undefined` is left out. -/
def members : List (String × Value) → List (List Char)
  | [] => []
  | (key, x) :: props =>
    match stringifyChars x with
    | some text => (quote key.toList ++ ':' :: text) :: members props
    | none => members props

end

/-- `JSON.stringify`. -/
def stringify (v : Value) : Option String := (stringifyChars T v).map String.ofList

/-! ## Sizes -/

variable (w : Char → Nat)

/-- The size of a text between commas. -/
def separatedSize : List Nat → Nat
  | [] => 0
  | [n] => n
  | n :: rest => n + (w ',' + separatedSize rest)

mutual

/-- The size of the text of a value, from its parts. -/
def size : Value → Option Nat
  | .undefined => none
  | .null => some (weight w "null".toList)
  | .bool b => some (weight w (if b then "true".toList else "false".toList))
  | .num (.fin q) => some (weight w (T.number q).toList)
  | .num _ => some (weight w "null".toList)
  | .str s => some (weight w (quote s.toList))
  | .date (.ms t) => some (weight w (quote (T.isoString t).toList))
  | .date .invalid => some (weight w "null".toList)
  | .arr xs => some (w '[' + separatedSize w (elementSizes xs) + w ']')
  | .obj props => some (w '{' + separatedSize w (memberSizes props) + w '}')

def elementSizes : List Value → List Nat
  | [] => []
  | x :: xs => (size x).getD (weight w "null".toList) :: elementSizes xs

def memberSizes : List (String × Value) → List Nat
  | [] => []
  | (key, x) :: props =>
    match size x with
    | some n => (weight w (quote key.toList) + (w ':' + n)) :: memberSizes props
    | none => memberSizes props

end

variable {T w}

theorem weight_separated (texts : List (List Char)) :
    weight w (separated texts) = separatedSize w (texts.map (weight w)) := by
  induction texts using separated.induct with
  | case1 => rfl
  | case2 text => rfl
  | case3 text rest hrest ih =>
    obtain ⟨next, rest, rfl⟩ := List.exists_cons_of_ne_nil hrest
    rw [separated, weight_append, weight_cons, ih]
    · rfl
    · exact hrest

mutual

/-- **Sizes.** The text of a value is as long as its parts. -/
theorem weight_stringify : ∀ v, (stringifyChars T v).map (weight w) = size T w v
  | .undefined => rfl
  | .null => rfl
  | .bool _ => rfl
  | .num (.fin _) => rfl
  | .num .nan => rfl
  | .num (.inf _) => rfl
  | .str _ => rfl
  | .date (.ms _) => rfl
  | .date .invalid => rfl
  | .arr xs => by
    rw [stringifyChars, size, Option.map_some, ← weight_elements xs, ← weight_separated]
    simp [Nat.add_assoc]
  | .obj props => by
    rw [stringifyChars, size, Option.map_some, ← weight_members props, ← weight_separated]
    simp [Nat.add_assoc]

theorem weight_elements : ∀ xs, (elements T xs).map (weight w) = elementSizes T w xs
  | [] => rfl
  | x :: xs => by
    rw [elements, elementSizes, List.map_cons, weight_elements xs, ← weight_stringify x]
    cases stringifyChars T x <;> rfl

theorem weight_members : ∀ props, (members T props).map (weight w) = memberSizes T w props
  | [] => rfl
  | (key, x) :: props => by
    rw [members, memberSizes, ← weight_stringify x, ← weight_members props]
    cases stringifyChars T x with
    | none => rfl
    | some text => simp

end

/-! ## Bytes -/

mutual

/-- What the characters of the strings and keys take in bytes beyond their code
units. -/
def surplusOf : Value → Nat
  | .str s => weight surplus s.toList
  | .arr xs => surplusOfElements xs
  | .obj props => surplusOfMembers props
  | _ => 0

def surplusOfElements : List Value → Nat
  | [] => 0
  | x :: xs => surplusOf x + surplusOfElements xs

def surplusOfMembers : List (String × Value) → Nat
  | [] => 0
  | (_, .undefined) :: props => surplusOfMembers props
  | (key, x) :: props => weight surplus key.toList + surplusOf x + surplusOfMembers props

end

theorem surplus_of_ascii {c : Char} (h : c.toNat < 0x80) : surplus c = 0 := if_pos h

/-- What is escaped is ASCII, and so is its escape. -/
theorem surplus_escape (c : Char) : weight surplus (escape c) = surplus c := by
  have hhex : ∀ x < 32, weight surplus (unicodeEscape (Char.ofNat x)) = 0 := by decide
  unfold escape
  split_ifs with h₁ h₂ h₃ h₄ h₅ h₆ h₇ h₈
  · rw [h₁]; rfl
  · rw [h₂]; rfl
  · rw [surplus_of_ascii (by omega)]; rfl
  · rw [surplus_of_ascii (by omega)]; rfl
  · rw [h₅]; rfl
  · rw [h₆]; rfl
  · rw [h₇]; rfl
  · rw [surplus_of_ascii (by omega), ← Char.ofNat_toNat c]
    exact hhex _ h₈
  · rfl

theorem surplus_quote (s : List Char) : weight surplus (quote s) = weight surplus s := by
  have hbody : weight surplus (s.flatMap escape) = weight surplus s := by
    induction s with
    | nil => rfl
    | cons c s ih => rw [List.flatMap_cons, weight_append, surplus_escape, ih, weight_cons]
  rw [quote, weight_append, weight_cons, hbody]
  exact Nat.zero_add _

theorem ascii_of_all {s : String} (h : s.toList.all (fun c => c.toNat < 0x80) = true) :
    ∀ c ∈ s.toList, c.toNat < 0x80 :=
  fun c hc => of_decide_eq_true (List.all_eq_true.mp h c hc)

theorem surplus_ascii {s : String} (h : ∀ c ∈ s.toList, c.toNat < 0x80) :
    weight surplus s.toList = 0 :=
  weight_eq_zero fun c hc => surplus_of_ascii (h c hc)

/-- Commas have no surplus. -/
theorem separatedSize_surplus (sizes : List Nat) :
    separatedSize surplus sizes = sizes.foldr (· + ·) 0 := by
  induction sizes using separatedSize.induct with
  | case1 => rfl
  | case2 n => rfl
  | case3 n rest hrest ih =>
    rw [separatedSize, ih, List.foldr_cons, show surplus ',' = 0 from rfl, Nat.zero_add]
    exact hrest

mutual

/-- **Surplus.** Only strings and keys have any. -/
theorem size_surplus : ∀ v, v ≠ .undefined → size T surplus v = some (surplusOf v)
  | .undefined, h => absurd rfl h
  | .null, _ => rfl
  | .bool true, _ => rfl
  | .bool false, _ => rfl
  | .num (.fin q), _ => by
    rw [size, surplus_ascii (T.ascii_number q)]
    rfl
  | .num .nan, _ => rfl
  | .num (.inf _), _ => rfl
  | .str s, _ => by rw [size, surplus_quote, surplusOf]
  | .date (.ms t), _ => by
    rw [size, surplus_quote, surplus_ascii (T.ascii_isoString t)]
    rfl
  | .date .invalid, _ => rfl
  | .arr xs, _ => by
    rw [size, separatedSize_surplus, surplus_elements xs, surplusOf]
    exact congrArg some (Nat.zero_add _)
  | .obj props, _ => by
    rw [size, separatedSize_surplus, surplus_members props, surplusOf]
    exact congrArg some (Nat.zero_add _)

theorem surplus_elements : ∀ xs,
    (elementSizes T surplus xs).foldr (· + ·) 0 = surplusOfElements xs
  | [] => rfl
  | x :: xs => by
    rw [elementSizes, List.foldr_cons, surplus_elements xs, surplusOfElements]
    by_cases hx : x = .undefined
    · rw [hx]
      rfl
    · rw [size_surplus x hx]
      rfl

theorem surplus_members : ∀ props,
    (memberSizes T surplus props).foldr (· + ·) 0 = surplusOfMembers props
  | [] => rfl
  | (key, x) :: props => by
    by_cases hx : x = .undefined
    · rw [hx, memberSizes, size, surplusOfMembers, surplus_members props]
    · rw [memberSizes, size_surplus x hx, surplusOfMembers]
      · simp only [List.foldr_cons, surplus_members props, surplus_quote,
          show surplus ':' = 0 from rfl, Nat.zero_add]
      · exact hx

end

/-- **Bytes.** The bytes of the text of a value are its code units and the surplus. -/
theorem utf8_stringify {v : Value} {text : String} (h : stringify T v = some text) :
    size T units v = some (weight units text.toList) ∧
      text.utf8ByteSize = weight units text.toList + surplusOf v := by
  obtain ⟨chars, hchars, rfl⟩ := Option.map_eq_some_iff.mp h
  have hunits := weight_stringify (T := T) (w := units) v
  have hsurplus := weight_stringify (T := T) (w := surplus) v
  have hdefined : v ≠ .undefined := by
    rintro rfl
    cases hchars
  rw [hchars, Option.map_some] at hunits hsurplus
  rw [size_surplus v hdefined, Option.some.injEq] at hsurplus
  rw [utf8_eq, String.toList_ofList, hsurplus]
  exact ⟨hunits.symm, rfl⟩

end Stringify

end SchedulingService.Js
