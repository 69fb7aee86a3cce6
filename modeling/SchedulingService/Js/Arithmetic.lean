import Mathlib.Data.Int.Log
import Mathlib.Data.Rat.Floor
import SchedulingService.Js.Value

/-!
# Arithmetic of numbers

Products, powers and the functions of `Math` that the services use, with NaN and
the infinities. What becomes of a result that is no double is up to an `Arithmetic`:
`doubles` rounds it to one, or to an infinity, and `rationals` leaves it as it is.
-/

namespace SchedulingService.Js

namespace Number

/-- `a < 0`. -/
def isNegative : Number → Bool
  | nan => false
  | inf negative => negative
  | fin q => decide (q < 0)

/-- `a * b`, where finite products are rounded as given. -/
def mulWith (round : ℚ → Number) : Number → Number → Number
  | fin p, fin q => round (p * q)
  | nan, _ => nan
  | _, nan => nan
  | a, b => if a = 0 ∨ b = 0 then nan else inf (a.isNegative != b.isNegative)

/-- `a * b`, exactly. -/
def mul : Number → Number → Number := mulWith fin

/-- `Math.pow(a, n)` for a natural exponent, exactly; everything to the zero is one. -/
def pow (a : Number) : Nat → Number
  | 0 => 1
  | n + 1 => (pow a n).mul a

/-- `a + n`. -/
def addNat : Number → Nat → Number
  | fin q, n => fin (q + n)
  | a, _ => a

/-- `Math.min(a, b)`. -/
def minimum (a b : Number) : Number :=
  if a = nan ∨ b = nan then nan else if a.lt b then a else b

/-- `Math.max(a, b)`. -/
def maximum (a b : Number) : Number :=
  if a = nan ∨ b = nan then nan else if a.lt b then b else a

/-- `Math.floor(a)`. -/
def floor : Number → Number
  | fin q => fin (q.floor : Int)
  | a => a

/-! ## Doubles -/

/-- The integer nearest to `q`, and the even one of two. -/
def roundHalfEven (q : ℚ) : Int :=
  let below := q.floor
  if q - below < 1 / 2 then below
  else if 1 / 2 < q - below then below + 1
  else if below % 2 = 0 then below else below + 1

/-- The double nearest to `q`: 53 significant bits, none of them below 2⁻¹⁰⁷⁴. From
2¹⁰²⁴ on it is infinite. -/
def nearest (q : ℚ) : Number :=
  let ulp : ℚ := 2 ^ max (Int.log 2 |q| - 52) (-1074)
  let rounded := roundHalfEven (q / ulp) * ulp
  if 2 ^ 1024 ≤ |rounded| then inf (decide (q < 0)) else fin rounded

end Number

/-- What a number that is written down denotes, `a * b`, and `Math.pow(a, n)`, which
the language leaves to the implementation. -/
structure Arithmetic where
  literal : ℚ → Number
  mul : Number → Number → Number
  pow : Number → Nat → Number

def Arithmetic.rationals : Arithmetic where
  literal := .fin
  mul := Number.mul
  pow := Number.pow

/-- Every result is rounded once. -/
def Arithmetic.doubles : Arithmetic where
  literal := Number.nearest
  mul := Number.mulWith Number.nearest
  pow a n := match a with
    | .fin q => Number.nearest (q ^ n)
    | _ => a.pow n

end SchedulingService.Js
