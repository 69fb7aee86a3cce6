import Mathlib.Data.Rat.Defs

/-!
# JavaScript values

The fragment of the language's values that the services inspect at run time:
thrown errors, rows keyed by column name, decoded wire messages and JSON
payloads are all plain values, and what the code does with them turns on
`undefined`, `null`, truthiness and the fact that every comparison with `NaN`
is false.

`Slot α` is the typed counterpart for a property whose declared type is `α`:
at run time such a property is `undefined`, `null` or a value.
-/

namespace SchedulingService.Js

/-- A number. Values between the special ones are exact rationals. -/
inductive Number
  | nan
  | inf (negative : Bool)
  | fin (q : ℚ)
  deriving DecidableEq

namespace Number

instance (n : Nat) : OfNat Number n := ⟨.fin n⟩

/-- `a < b`; false when either side is NaN. -/
def lt : Number → Number → Bool
  | fin p, fin q => decide (p < q)
  | inf a, inf b => a && !b
  | inf a, fin _ => a
  | fin _, inf b => !b
  | nan, _ => false
  | _, nan => false

/-- `a <= b`; false when either side is NaN. -/
def le : Number → Number → Bool
  | fin p, fin q => decide (p ≤ q)
  | inf a, inf b => a || !b
  | inf a, fin _ => a
  | fin _, inf b => !b
  | nan, _ => false
  | _, nan => false

end Number

/-- A `Date`: its time value in milliseconds, or an Invalid Date. -/
inductive Date
  | invalid
  | ms (t : Int)
  deriving DecidableEq

/-- `a <= b` on dates; false when either is invalid. -/
def Date.le : Date → Date → Bool
  | ms a, ms b => decide (a ≤ b)
  | _, _ => false

/-- `a.getTime() - b.getTime()`. -/
def Date.minus : Date → Date → Number
  | ms a, ms b => .fin ((a - b : Int) : ℚ)
  | _, _ => .nan

inductive Value
  | undefined
  | null
  | bool (b : Bool)
  | num (n : Number)
  | str (s : String)
  | date (d : Date)
  | arr (xs : List Value)
  | obj (props : List (String × Value))
  deriving Inhabited

namespace Value

/-- Reading a property; `undefined` where there is none. -/
def get : Value → String → Value
  | obj props, key => (props.lookup key).getD undefined
  | _, _ => undefined

/-- `undefined` or `null`: reading a property of these throws a TypeError. -/
def isNullish : Value → Bool
  | undefined => true
  | null => true
  | _ => false

def truthy : Value → Bool
  | undefined => false
  | null => false
  | bool b => b
  | num .nan => false
  | num n => n ≠ 0
  | str s => s ≠ ""
  | _ => true

/-- `typeof v === 'object'`. -/
def typeofObject : Value → Bool
  | null => true
  | date _ => true
  | arr _ => true
  | obj _ => true
  | _ => false

/-- `a ?? b`. -/
def orElse (a b : Value) : Value := if a.isNullish then b else a

/-- `v === n` for a number `n`. -/
def eqNum : Value → Number → Bool
  | num .nan, _ => false
  | num m, n => decide (m = n)
  | _, _ => false

@[simp] theorem get_undefined (key : String) : undefined.get key = undefined := rfl
@[simp] theorem get_null (key : String) : null.get key = undefined := rfl

end Value

/-- A property of declared type `α` as it is at run time. -/
inductive Slot (α : Type*)
  | undefined
  | null
  | val (a : α)
  deriving DecidableEq

namespace Slot

variable {α : Type*}

/-- `slot !== undefined`. -/
def isDefined : Slot α → Bool
  | undefined => false
  | _ => true

/-- The value, if there is one. -/
def toOption : Slot α → Option α
  | val a => some a
  | _ => none

/-- The property as a value. -/
def toValue (ofVal : α → Value) : Slot α → Value
  | undefined => .undefined
  | null => .null
  | val a => ofVal a

/-- A nullable column's value as a property. -/
def ofNullable : Option α → Slot α
  | none => null
  | some a => val a

@[simp] theorem isDefined_val (a : α) : (val a).isDefined = true := rfl
@[simp] theorem toOption_val (a : α) : (val a).toOption = some a := rfl

@[simp] theorem isDefined_ofNullable (a : Option α) : (ofNullable a).isDefined = true := by
  cases a <;> rfl

@[simp] theorem toOption_ofNullable (a : Option α) : (ofNullable a).toOption = a := by
  cases a <;> rfl

end Slot

end SchedulingService.Js
