import Zeitnot.Number.Fault
import Zeitnot.Number.FixedText
/-!
Scalars: the approximate reals that clock times are scaled with. The formulas of the allocator are
written once for every type with these operations; the program runs them on binary64 numbers.
-/
set_option autoImplicit false

namespace Zeitnot.Number

class Scalar (S : Type) where
  /-- A small count. -/
  ofNat : Nat → S
  /-- The scalar nearest to an integer. -/
  ofInt : Int → Except Fault S
  /-- The scalar nearest to a quotient of integers with a positive divisor. -/
  quotient : Int → Int → Except Fault S
  add : S → S → S
  sub : S → S → S
  mul : S → S → S
  div : S → S → Except Fault S
  less : S → S → Bool
  isZero : S → Bool
  infinity : S
  log10 : S → Except Fault S
  /-- Logarithm of an integer of any size. -/
  log10OfInt : Int → Except Fault S
  pow : S → S → Except Fault S
  /-- The integer next to a scalar on the side of zero. -/
  truncate : S → Except Fault Int
  /-- The scalar with a fixed count of decimal places. -/
  fixed : Nat → S → String

namespace Scalar
variable {S : Type} [Scalar S]

/-- The first of two scalars unless the second is less. -/
def least (a b : S) : S := if less b a then b else a

/-- The first of two scalars unless it is less than the second. -/
def greatest (a b : S) : S := if less a b then b else a

end Scalar

namespace Binary64

def checked (fault : Fault) (x : Float) : Except Fault Float :=
  if isFinite x then .ok x else .error fault

/-- An integer that the format cannot hold is scaled into the interval from one half to one, and
the scale is added to its logarithm. -/
def log10OfInt (i : Int) : Except Fault Float :=
  if i ≤ 0 then .error .domain
  else if isFinite (ofInt i) then .ok (Float.log10 (ofInt i))
  else
    let k := Nat.log2 i.natAbs + 1
    let x := ofQuotient false i.natAbs (Nat.pow 2 k)
    if x == 1.0 then .ok (Float.log10 0.5 + Float.log10 2.0 * ofInt (k + 1))
    else .ok (Float.log10 x + Float.log10 2.0 * ofInt k)

/-- Of two finite numbers, a power that is no number lies outside the domain, and so does an
infinite power of zero; any other infinite power is out of range. -/
def power (x y : Float) : Except Fault Float :=
  let r := Float.pow x y
  if isFinite x && isFinite y then
    match decode r with
    | .finite .. => .ok r
    | .nan => .error .domain
    | .infinite _ => if x == 0.0 then .error .domain else .error .range
  else .ok r

def truncate (x : Float) : Except Fault Int :=
  match decode x with
  | .nan => .error .nanToInt
  | .infinite _ => .error .infinityToInt
  | .finite negative m q =>
    let (a, b) := scaled m 2 q
    .ok (if negative then -(a / b : Nat) else (a / b : Nat))

end Binary64

instance : Scalar Float where
  ofNat n := Binary64.ofInt n
  ofInt i := Binary64.checked .intTooLarge (Binary64.ofInt i)
  quotient a b :=
    if b = 0 then .error .intDivisionByZero
    else
      Binary64.checked .quotientTooLarge
        (Binary64.ofQuotient (decide (a < 0) != decide (b < 0)) a.natAbs b.natAbs)
  add a b := a + b
  sub a b := a - b
  mul a b := a * b
  div a b := if b == 0.0 then .error .realDivisionByZero else .ok (a / b)
  less a b := a < b
  isZero a := a == 0.0
  infinity := Binary64.infinity
  log10 x :=
    match Binary64.decode x with
    | .nan => .ok x
    | _ => if x > 0.0 then .ok (Float.log10 x) else .error .domain
  log10OfInt := Binary64.log10OfInt
  pow := Binary64.power
  truncate := Binary64.truncate
  fixed := fixedText

end Zeitnot.Number
