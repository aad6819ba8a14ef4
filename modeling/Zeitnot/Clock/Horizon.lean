import Zeitnot.Clock.Constants
set_option autoImplicit false

namespace Zeitnot
open Number

/-- The quotient of the magnitudes, with the sign that the quotient has. -/
def truncDiv (a b : Int) : Int :=
  let q : Int := (a.natAbs / b.natAbs : Nat)
  if decide (0 ≤ a) = decide (0 < b) then q else -q

def divide (a b : Int) : Except Fault Int :=
  if b = 0 then .error .intDivisionByZero else .ok (truncDiv a b)

theorem divide_of_ne_zero (a : Int) {b : Int} (hb : b ≠ 0) : divide a b = .ok (truncDiv a b) :=
  if_neg hb

example : truncDiv (-7) 2 = -3 ∧ truncDiv 7 (-2) = -3 ∧ truncDiv (-7) (-2) = 3 := by decide

variable {S : Type} [Scalar S]

/-- Moves that the clock has to last for, in hundredths. Below one second of (scaled) time the
horizon shrinks with the clock. -/
def centiMovesToGo (c : Constants S) (movesToGo scaledTime : Int) : Except Fault Int := do
  let horizon :=
    if movesToGo ≠ 0 then min (movesToGo * 100) c.longestHorizon else c.suddenDeathHorizon
  if scaledTime < 1000 then
    let short ← Scalar.truncate (Scalar.mul (← Scalar.ofInt scaledTime) c.shortClockRate)
    pure (min horizon short)
  else pure horizon

/-- The clock with the increments of the horizon and without its overheads, at least one. -/
def effectiveTimeLeft (time inc centiMoves overhead : Int) : Int :=
  max 1 (time + truncDiv (inc * (centiMoves - 100) - overhead * (200 + centiMoves)) 100)

theorem one_le_effectiveTimeLeft (time inc centiMoves overhead : Int) :
    1 ≤ effectiveTimeLeft time inc centiMoves overhead := by
  unfold effectiveTimeLeft; omega

end Zeitnot
