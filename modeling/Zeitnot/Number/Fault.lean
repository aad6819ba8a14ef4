set_option autoImplicit false

namespace Zeitnot.Number

inductive Fault
  /-- An integer whose nearest real is infinite. -/
  | intTooLarge
  /-- A quotient of integers whose nearest real is infinite. -/
  | quotientTooLarge
  | infinityToInt
  | nanToInt
  | realDivisionByZero
  | intDivisionByZero
  | intModuloByZero
  /-- An argument for which a function is not defined. -/
  | domain
  /-- A finite argument with an infinite result. -/
  | range
  deriving DecidableEq, Repr

def Fault.message : Fault → String
  | .intTooLarge => "int too large to convert to float"
  | .quotientTooLarge => "integer division result too large for a float"
  | .infinityToInt => "cannot convert float infinity to integer"
  | .nanToInt => "cannot convert float NaN to integer"
  | .realDivisionByZero => "float division by zero"
  | .intDivisionByZero => "integer division or modulo by zero"
  | .intModuloByZero => "integer modulo by zero"
  | .domain => "math domain error"
  | .range => "math range error"

def floorDiv (a b : Int) : Except Fault Int :=
  if b = 0 then .error .intDivisionByZero else .ok (Int.fdiv a b)

/-- The remainder that takes the sign of the divisor. -/
def floorMod (a b : Int) : Except Fault Int :=
  if b = 0 then .error .intModuloByZero else .ok (Int.fmod a b)

end Zeitnot.Number
