import Mathlib.Order.Monotone.Basic
import Mathlib.Tactic
import Zeitnot.Proofs.Clock.Division
import Zeitnot.Proofs.Stateful
set_option autoImplicit false

namespace Zeitnot
open Number Stateful

section
variable {time time' inc inc' centiMoves overhead overhead' : Int}

theorem effectiveTimeLeft_le (htime : time ≤ time')
    (h : inc * (centiMoves - 100) - overhead * (200 + centiMoves) ≤
      inc' * (centiMoves - 100) - overhead' * (200 + centiMoves)) :
    effectiveTimeLeft time inc centiMoves overhead ≤
      effectiveTimeLeft time' inc' centiMoves overhead' :=
  max_le_max le_rfl (add_le_add htime (truncDiv_le_truncDiv (by norm_num) h))

theorem effectiveTimeLeft_mono_time (h : time ≤ time') :
    effectiveTimeLeft time inc centiMoves overhead ≤
      effectiveTimeLeft time' inc centiMoves overhead :=
  effectiveTimeLeft_le h le_rfl

theorem effectiveTimeLeft_anti_overhead (hmoves : -200 ≤ centiMoves) (h : overhead ≤ overhead') :
    effectiveTimeLeft time inc centiMoves overhead' ≤
      effectiveTimeLeft time inc centiMoves overhead := by
  refine effectiveTimeLeft_le le_rfl ?_
  have hmul : overhead * (200 + centiMoves) ≤ overhead' * (200 + centiMoves) :=
    Int.mul_le_mul_of_nonneg_right h (by omega)
  omega

theorem effectiveTimeLeft_mono_inc (hmoves : 100 ≤ centiMoves) (h : inc ≤ inc') :
    effectiveTimeLeft time inc centiMoves overhead ≤
      effectiveTimeLeft time inc' centiMoves overhead := by
  refine effectiveTimeLeft_le le_rfl ?_
  have hmul : inc * (centiMoves - 100) ≤ inc' * (centiMoves - 100) :=
    Int.mul_le_mul_of_nonneg_right h (by omega)
  omega

theorem effectiveTimeLeft_anti_inc (hmoves : centiMoves ≤ 100) (h : inc ≤ inc') :
    effectiveTimeLeft time inc' centiMoves overhead ≤
      effectiveTimeLeft time inc centiMoves overhead := by
  refine effectiveTimeLeft_le le_rfl ?_
  have hmul : inc' * (centiMoves - 100) ≤ inc * (centiMoves - 100) :=
    Int.mul_le_mul_of_nonpos_right h (by omega)
  omega

theorem effectiveTimeLeft_hundred_lt (hmoves : centiMoves < 100) :
    effectiveTimeLeft 100 100 centiMoves 0 < effectiveTimeLeft 100 0 centiMoves 0 := by
  have hsum : 100 * (centiMoves - 100) - 0 * (200 + centiMoves) = (centiMoves - 100) * 100 := by
    ring
  unfold effectiveTimeLeft
  rw [hsum, truncDiv_mul_right _ (by norm_num)]
  have hzero : truncDiv (0 * (centiMoves - 100) - 0 * (200 + centiMoves)) 100 = 0 := by
    simp [truncDiv]
  omega

theorem effectiveTimeLeft_mono_inc_iff :
    (∀ time overhead, 0 ≤ overhead →
      MonotoneOn (effectiveTimeLeft time · centiMoves overhead) (Set.Ici 0)) ↔
        100 ≤ centiMoves := by
  constructor
  · intro h
    by_contra hshort
    have hmono := h 100 0 le_rfl (a := 0) (b := 100) (by simp) (by simp) (by norm_num)
    exact absurd (effectiveTimeLeft_hundred_lt (not_le.1 hshort)) (not_lt.2 hmono)
  · intro hmoves _ _ _ _ _ _ _ h
    exact effectiveTimeLeft_mono_inc hmoves h

end

/-! ### The tuned horizon -/

/-- Below one second the rounding of the product never reaches the next hundredth of a move. -/
theorem truncate_shortClock : ∀ t : Fin 1000,
    (do Scalar.truncate (Scalar.mul (← Scalar.ofInt (t : Nat)) Constants.tuned.shortClockRate)) =
      (.ok (5051 * (t : Nat) / 1000) : Except Fault Int) := by
  decide +kernel

def fullHorizon (movesToGo : Int) : Int :=
  if movesToGo ≠ 0 then min (movesToGo * 100) 5000 else 5051

theorem hundred_le_fullHorizon {movesToGo : Int} (h : 0 ≤ movesToGo) :
    100 ≤ fullHorizon movesToGo := by
  unfold fullHorizon
  split <;> omega

theorem centiMovesToGo_tuned (movesToGo : Int) {scaledTime : Int} (h : 0 ≤ scaledTime) :
    centiMovesToGo Constants.tuned movesToGo scaledTime =
      .ok (if scaledTime < 1000 then min (fullHorizon movesToGo) (5051 * scaledTime / 1000)
        else fullHorizon movesToGo) := by
  unfold centiMovesToGo
  by_cases hshort : scaledTime < 1000
  · lift scaledTime to ℕ using h
    obtain ⟨x, hx, htruncate⟩ := bind_ok (truncate_shortClock ⟨scaledTime, by omega⟩)
    simp only [hshort, if_true, hx, htruncate, bind, Except.bind]
    rfl
  · simp only [hshort, if_false]
    rfl

/-- The horizon is as long as one move from 20 milliseconds on. -/
theorem hundred_le_of_centiMovesToGo {movesToGo scaledTime centiMoves : Int} (hm : 0 ≤ movesToGo)
    (ht : 0 ≤ scaledTime)
    (h : centiMovesToGo Constants.tuned movesToGo scaledTime = .ok centiMoves) :
    0 ≤ centiMoves ∧ (100 ≤ centiMoves ↔ 20 ≤ scaledTime) := by
  have hfull : 100 ≤ fullHorizon movesToGo := hundred_le_fullHorizon hm
  rw [centiMovesToGo_tuned movesToGo ht] at h
  cases h
  split <;> omega

/-- With the tuned horizon of a clock there is at least one millisecond left, more (or as much) with
more on the clock and less with a larger overhead. A larger increment never leaves less exactly if
there are 20 milliseconds on the scaled clock; with fewer the horizon is shorter than a move, and it
never leaves more. -/
theorem effectiveTimeLeft_monotone {movesToGo scaledTime : Int} (hm : 0 ≤ movesToGo)
    (ht : 0 ≤ scaledTime) :
    ∃ centiMoves, centiMovesToGo Constants.tuned movesToGo scaledTime = .ok centiMoves ∧
      (∀ time inc overhead, 1 ≤ effectiveTimeLeft time inc centiMoves overhead) ∧
      (∀ inc overhead, Monotone (effectiveTimeLeft · inc centiMoves overhead)) ∧
      (∀ time inc, Antitone (effectiveTimeLeft time inc centiMoves ·)) ∧
      ((∀ time overhead, 0 ≤ overhead →
        MonotoneOn (effectiveTimeLeft time · centiMoves overhead) (Set.Ici 0)) ↔
          20 ≤ scaledTime) ∧
      (scaledTime < 20 →
        ∀ time overhead, Antitone (effectiveTimeLeft time · centiMoves overhead)) := by
  refine ⟨_, centiMovesToGo_tuned movesToGo ht, fun _ _ _ => one_le_effectiveTimeLeft _ _ _ _, ?_⟩
  obtain ⟨hmoves, hlong⟩ :=
    hundred_le_of_centiMovesToGo hm ht (centiMovesToGo_tuned movesToGo ht)
  refine ⟨fun _ _ _ _ h => effectiveTimeLeft_mono_time h,
    fun _ _ _ _ h => effectiveTimeLeft_anti_overhead (by omega) h,
    effectiveTimeLeft_mono_inc_iff.trans hlong, fun hshort _ _ _ _ h =>
      effectiveTimeLeft_anti_inc ?_ h⟩
  by_contra hmore
  exact absurd (hlong.1 (by omega)) (not_le.2 hshort)

theorem effectiveTimeLeft_one_second :
    centiMovesToGo Constants.tuned 0 1000 = .ok 5051 ∧
      effectiveTimeLeft 1000 10 5051 0 ≤ effectiveTimeLeft 1000 20 5051 0 := by
  obtain ⟨centiMoves, hmoves, -, -, -, hinc, -⟩ :=
    effectiveTimeLeft_monotone (le_refl 0) (show (0 : Int) ≤ 1000 by norm_num)
  have htuned : centiMovesToGo Constants.tuned 0 1000 = .ok 5051 := by decide +kernel
  rw [htuned] at hmoves
  cases hmoves
  exact ⟨htuned, hinc.2 (by norm_num) 1000 0 le_rfl (by simp) (by simp) (by norm_num)⟩

theorem effectiveTimeLeft_ten_milliseconds :
    centiMovesToGo Constants.tuned 0 10 = .ok 50 ∧
      effectiveTimeLeft 10 100 50 0 = 1 ∧ effectiveTimeLeft 10 0 50 0 = 10 := by
  decide +kernel

end Zeitnot
