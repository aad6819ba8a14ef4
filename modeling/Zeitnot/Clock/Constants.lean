import Zeitnot.Number.Scalar
set_option autoImplicit false

namespace Zeitnot

structure Constants (S : Type) where
  /-- Horizon of sudden death, in hundredths of a move. -/
  suddenDeathHorizon : Int
  /-- Longest horizon of a time control, in hundredths of a move. -/
  longestHorizon : Int
  /-- Hundredths of a move per millisecond of a clock below one second. -/
  shortClockRate : S
  adjustLogFactor : S
  adjustOffset : S
  optBase : S
  optLogFactor : S
  optMost : S
  maxBase : S
  maxLogFactor : S
  maxLeast : S
  optOffset : S
  plyOffset : S
  plyExponent : S
  optTimeLeftCap : S
  maxScaleCap : S
  maxPlyDivisor : S
  controlOptBase : S
  controlPlyDivisor : S
  controlTimeLeftCap : S
  controlMaxBase : S
  controlMaxPerMove : S
  /-- Shares of the clock that no bound exceeds. -/
  optimumCap : S
  maximumCap : S
  /-- Share of the clock that the maximum may use together with the overhead of the move. -/
  overheadCap : S
  ponderDivisor : Int
  deriving Repr

def Constants.tuned : Constants Float where
  suddenDeathHorizon := 5051
  longestHorizon := 5000
  shortClockRate := 5.051
  adjustLogFactor := 0.3128
  adjustOffset := 0.4354
  optBase := 0.0032116
  optLogFactor := 0.000321123
  optMost := 0.00508017
  maxBase := 3.3977
  maxLogFactor := 3.03950
  maxLeast := 2.94761
  optOffset := 0.0121431
  plyOffset := 2.94693
  plyExponent := 0.461073
  optTimeLeftCap := 0.213035
  maxScaleCap := 6.67704
  maxPlyDivisor := 11.9847
  controlOptBase := 0.88
  controlPlyDivisor := 116.4
  controlTimeLeftCap := 0.88
  controlMaxBase := 1.3
  controlMaxPerMove := 0.11
  optimumCap := 0.20
  maximumCap := 0.30
  overheadCap := 0.825179
  ponderDivisor := 4

end Zeitnot
