import Zeitnot.Proofs.Clock.Arming
import Zeitnot.Proofs.Number.Exact
/-!
The adjustment of a game grows with the logarithm of the time left at its first search. It is
negative, like one that is not derived yet, if less than 25 milliseconds (or nodes) are left.
-/
set_option autoImplicit false

namespace Zeitnot
open Number Stateful

section
variable {S : Type} [Scalar S]

/-- An adjustment that the next search in sudden death derives anew. -/
def Negative (adjust : S) : Prop := Scalar.less adjust (Scalar.ofNat 0) = true

instance (adjust : S) : Decidable (Negative adjust) :=
  inferInstanceAs (Decidable (Scalar.less adjust (Scalar.ofNat 0) = true))

def timeLeftFor (c : Constants S) (settings : TimeSettings) (l : Limits) (us : Side) :
    Except Fault Int := do
  let time := l.time.get us
  let scaledTime := truncDiv time (if settings.nodesPerMs = 0 then 1 else settings.nodesPerMs)
  let centiMoves ← centiMovesToGo c l.movesToGo scaledTime
  pure (effectiveTimeLeft time (l.inc.get us) centiMoves settings.moveOverhead)

theorem one_le_of_timeLeftFor {c : Constants S} {settings : TimeSettings} {l : Limits} {us : Side}
    {timeLeft : Int} (h : timeLeftFor c settings l us = .ok timeLeft) : 1 ≤ timeLeft := by
  obtain ⟨centiMoves, -, h⟩ := bind_ok h
  cases h
  exact one_le_effectiveTimeLeft _ _ _ _

theorem settledAdjust_eq (c : Constants S) (movesToGo timeLeft : Int) (adjust : S) :
    settledAdjust c movesToGo timeLeft adjust =
      if movesToGo = 0 ∧ Negative adjust then derivedAdjust c timeLeft else .ok adjust := rfl

theorem allocation_settled {c : Constants S} {settings : TimeSettings} {l : Limits} {us : Side}
    {ply : Int} {adjust : S} {r : Allocation S}
    (h : allocation c settings l us ply adjust = .ok r) :
    ∃ timeLeft, timeLeftFor c settings l us = .ok timeLeft ∧
      settledAdjust c l.movesToGo timeLeft adjust = .ok r.adjust := by
  unfold allocation at h
  obtain ⟨centiMoves, hmoves, h⟩ := bind_ok h
  obtain ⟨settled, hsettled, h⟩ := bind_ok h
  obtain ⟨scales, -, h⟩ := bind_ok h
  obtain ⟨aim, -, h⟩ := bind_ok h
  obtain ⟨maximum, -, h⟩ := bind_ok h
  obtain ⟨optimum, -, h⟩ := bind_ok h
  cases h
  exact ⟨_, by rw [timeLeftFor, hmoves]; rfl, hsettled⟩

/-- Scalars that derive adjustments from the tuned coefficients as the reals do, up to roundings. -/
def Accurate (c : Constants S) (value : S → ℝ) : Prop :=
  ∀ (timeLeft : Int) (adjust : S), 1 ≤ timeLeft → derivedAdjust c timeLeft = .ok adjust →
    (Negative adjust ↔ value adjust < 0) ∧
      |value adjust - (0.3128 * Exact.decimalLog timeLeft - 0.4354)| ≤
        (1 + Exact.decimalLog timeLeft) / 10000

end

/-- With 24 left the adjustment is still negative, with 25 it is not. -/
theorem Accurate.negative_iff {S : Type} [Scalar S] {c : Constants S} {value : S → ℝ}
    (h : Accurate c value) {timeLeft : Int} {adjust : S} (hone : 1 ≤ timeLeft)
    (hd : derivedAdjust c timeLeft = .ok adjust) : Negative adjust ↔ timeLeft ≤ 24 := by
  obtain ⟨hsign, hnear⟩ := h timeLeft adjust hone hd
  obtain ⟨hlow, hhigh⟩ := abs_le.1 hnear
  have hpos : (0 : ℝ) < timeLeft := by exact_mod_cast hone
  rw [hsign]
  constructor
  · intro hneg
    by_contra hmore
    have hle : (25 : ℝ) ≤ timeLeft := by exact_mod_cast not_le.1 hmore
    have hlog := Exact.decimalLog_le (by norm_num) hle
    have hbound : ((39 : ℕ) : ℝ) / (28 : ℕ) < Exact.decimalLog 25 :=
      Exact.div_lt_decimalLog (by norm_num) (by norm_num)
    norm_num at hbound
    linarith
  · intro hless
    have hle : (timeLeft : ℝ) ≤ 24 := by exact_mod_cast hless
    have hlog := Exact.decimalLog_le hpos hle
    have hbound : Exact.decimalLog 24 < ((18 : ℕ) : ℝ) / (13 : ℕ) :=
      Exact.decimalLog_lt_div (by norm_num) (by norm_num) (by norm_num)
    norm_num at hbound
    linarith

end Zeitnot
