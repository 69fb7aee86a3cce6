import SchedulingService.Js.Value

/-!
# The decorators of the request classes

What the decorators of `class-validator` that the request classes carry check of
a property's value, and `MaxJsonSizeConstraint`. A property is valid when all of
its decorators accept the value; `@IsOptional()` switches the others off for a
missing one. The global pipe converts a property to its declared type before.
-/

namespace SchedulingService.Common

open Js

/-- What the decorators ask of other packages and of the language's library. -/
structure Validators where
  /-- `isUUID`. -/
  isUuid : String → Bool
  /-- `JSON.stringify`; `none` where it throws or returns `undefined`. -/
  stringify : Value → Option String

/-- `text.length`: UTF-16 code units. -/
def utf16Length (text : String) : Nat :=
  text.toList.foldl (fun n c => n + if c.toNat < 0x10000 then 1 else 2) 0

/-- A variation selector: how the character before it is shown. -/
def isSelector (c : Char) : Bool := c = '\uFE0E' || c = '\uFE0F'

/-- The characters of a text, after one that is no selector (`plain`) or not. -/
def countFrom (plain : Bool) : List Char → Nat
  | [] => 0
  -- a selector makes one character with a plain one before it
  | c :: cs => (if plain && isSelector c then 0 else 1) + countFrom (!isSelector c) cs

/-- The length of a text that `isLength` takes. -/
def characters (text : String) : Nat := countFrom false text.toList

/-- An emoji with its selector is one character. -/
example : characters "1\uFE0F, 2\uFE0F" = 4 := by decide

def isOptional (check : Value → Bool) (v : Value) : Bool :=
  v.isNullish || check v

def isString : Value → Bool
  | .str _ => true
  | _ => false

def isNotEmpty : Value → Bool
  | .str s => s ≠ ""
  | v => !v.isNullish

def maxLength (max : Nat) : Value → Bool
  | .str s => characters s ≤ max
  | _ => false

def isUUID (V : Validators) : Value → Bool
  | .str s => V.isUuid s
  | _ => false

def isInt : Value → Bool
  | .num (.fin q) => q.den = 1
  | _ => false

/-- `@Min(bound)`. -/
def minValue (bound : Nat) : Value → Bool
  | .num n => Number.le (.fin bound) n
  | _ => false

/-- `@Max(bound)`. -/
def maxValue (bound : Nat) : Value → Bool
  | .num n => n.le (.fin bound)
  | _ => false

def isObject : Value → Bool
  | .date _ => true
  | .obj _ => true
  | _ => false

/-- `MAX_PAYLOAD_BYTES`. -/
def maxPayloadBytes : Nat := 8192

/-- `MaxJsonSizeConstraint.validate`. -/
def maxJsonSize (V : Validators) (v : Value) : Bool :=
  match V.stringify v with
  | some text => utf16Length text ≤ maxPayloadBytes
  | none => false

/-- `@IsInt() @Min(low) @Max(high)`. -/
def isIntBetween (low high : Nat) (v : Value) : Bool :=
  isInt v && minValue low v && maxValue high v

/-! ## The conversion before -/

/-- What the pipe's conversion asks of the language, and of the package that makes it. -/
structure Conversion where
  /-- `String(v)`; `none` where it throws. -/
  text : Value → Option String
  /-- The properties of an object that its copy has; `none` where copying throws. -/
  copy : List (String × Value) → Option (List (String × Value))

namespace Conversion

variable (C : Conversion)

/-- What `enableImplicitConversion` makes of a property of type `string`. -/
def toText : Value → Option Value
  | .undefined => some .undefined
  | .null => some .null
  | .str s => some (.str s)
  -- an array stays one: it is its elements that are converted
  | .arr xs => some (.arr xs)
  | v => (C.text v).map .str

/-- And of one of type `Record<string, any>`. -/
def toRecord : Value → Option Value
  | .obj props => (C.copy props).map .obj
  | v => some v

end Conversion

/-! ## Whole numbers -/

theorem isIntBetween_iff {low high : Nat} {v : Value} :
    isIntBetween low high v = true ↔
      ∃ n : Int, v = .num (.fin n) ∧ low ≤ n ∧ n ≤ high := by
  constructor
  · intro h
    cases v with
    | num m =>
      cases m with
      | fin q =>
        simp only [isIntBetween, isInt, minValue, maxValue, Number.le, Bool.and_eq_true,
          decide_eq_true_eq] at h
        obtain ⟨⟨hden, hlow⟩, hhigh⟩ := h
        -- `@IsInt()` is the denominator, the bounds are on the rational
        obtain ⟨n, rfl⟩ : ∃ n : Int, q = n := ⟨q.num, (Rat.coe_int_num_of_den_eq_one hden).symm⟩
        exact ⟨n, rfl, by exact_mod_cast hlow, by exact_mod_cast hhigh⟩
      | nan => cases h
      | inf => cases h
    | _ => cases h
  · rintro ⟨n, rfl, hlow, hhigh⟩
    have hlow' : ((low : ℕ) : ℚ) ≤ n := by exact_mod_cast hlow
    have hhigh' : (n : ℚ) ≤ (high : ℕ) := by exact_mod_cast hhigh
    simp [isIntBetween, isInt, minValue, maxValue, Number.le, hlow', hhigh']

end SchedulingService.Common
