import Mathlib.Order.Monotone.Basic
import Mathlib.Tactic
import Zeitnot.Clock.Horizon
set_option autoImplicit false

namespace Zeitnot

theorem truncDiv_eq_tdiv (a b : Int) : truncDiv a b = a.tdiv b := by
  rcases a with m | m <;> rcases b with n | n
  · rcases Nat.eq_zero_or_pos n with rfl | hn
    · simp [truncDiv]
    · simp [truncDiv, hn, Int.tdiv]
  · simp [truncDiv, Int.tdiv]
  · rcases Nat.eq_zero_or_pos n with rfl | hn
    · simp [truncDiv, Int.tdiv]
    · simp [truncDiv, hn, Int.tdiv]
  · simp [truncDiv, Int.tdiv]

theorem truncDiv_le_truncDiv {a b d : Int} (hd : 0 < d) (h : a ≤ b) :
    truncDiv a d ≤ truncDiv b d := by
  rw [truncDiv_eq_tdiv, truncDiv_eq_tdiv]
  exact Int.tdiv_le_tdiv hd h

@[simp] theorem truncDiv_mul_right (a : Int) {d : Int} (hd : d ≠ 0) : truncDiv (a * d) d = a := by
  rw [truncDiv_eq_tdiv, Int.mul_tdiv_cancel _ hd]

@[simp] theorem truncDiv_one (a : Int) : truncDiv a 1 = a := by
  rw [truncDiv_eq_tdiv, Int.tdiv_one]

/-- A quotient `q` of `a` by `b` that is rounded toward zero, with the remainder `r`. -/
structure Truncates (a b q r : Int) : Prop where
  eq : a = b * q + r
  small : |r| < |b|
  sign : r = 0 ∨ r.sign = a.sign

namespace Truncates
variable {a b q q' r r' : Int}

theorem ne_zero (h : Truncates a b q r) : b ≠ 0 := by
  rintro rfl
  exact absurd h.small (not_lt.2 (by simp))

theorem nonneg (h : Truncates a b q r) (ha : 0 ≤ a) : 0 ≤ r := by
  rcases h.sign with rfl | hsign
  · exact le_rfl
  · exact Int.sign_nonneg_iff.1 (hsign ▸ Int.sign_nonneg_iff.2 ha)

theorem neg (h : Truncates a b q r) : Truncates (-a) b (-q) (-r) := by
  refine ⟨?_, ?_, ?_⟩
  · rw [h.eq]
    ring
  · rw [abs_neg]
    exact h.small
  · simpa using h.sign

theorem neg_divisor (h : Truncates a b q r) : Truncates a (-b) (-q) r := by
  refine ⟨?_, ?_, h.sign⟩
  · rw [neg_mul_neg]
    exact h.eq
  · rw [abs_neg]
    exact h.small

theorem unique (h : Truncates a b q r) (h' : Truncates a b q' r') : q = q' ∧ r = r' := by
  wlog ha : 0 ≤ a generalizing a q q' r r'
  · obtain ⟨hq, hr⟩ := this h.neg h'.neg (by omega)
    exact ⟨neg_inj.1 hq, neg_inj.1 hr⟩
  have heq : b * q + r = b * q' + r' := h.eq.symm.trans h'.eq
  -- Both remainders are on the side of the dividend, so that they differ by less than the divisor.
  have hlt : |r - r'| < |b| := by
    have hr := h.small
    have hr' := h'.small
    rw [abs_of_nonneg (h.nonneg ha)] at hr
    rw [abs_of_nonneg (h'.nonneg ha)] at hr'
    have hnonneg := h.nonneg ha
    have hnonneg' := h'.nonneg ha
    rw [abs_lt]
    omega
  have hdvd : b ∣ r - r' := ⟨q' - q, by linarith⟩
  have hzero : r - r' = 0 := Int.eq_zero_of_abs_lt_dvd ((abs_dvd b _).2 hdvd) hlt
  exact ⟨mul_left_cancel₀ h.ne_zero (by omega), by omega⟩

end Truncates

theorem truncates_tmod (a : Int) {b : Int} (hb : b ≠ 0) :
    Truncates a b (truncDiv a b) (a.tmod b) := by
  refine ⟨?_, ?_, ?_⟩
  · rw [truncDiv_eq_tdiv, Int.mul_tdiv_add_tmod]
  · rw [Int.abs_eq_natAbs, Int.abs_eq_natAbs, Int.natAbs_tmod]
    exact_mod_cast Nat.mod_lt _ (Int.natAbs_pos.2 hb)
  · by_cases hdvd : b ∣ a
    · exact .inl (Int.tmod_eq_zero_of_dvd hdvd)
    · exact .inr (by rw [Int.sign_tmod, if_neg hdvd])

/-- Division by anything but zero has an answer: the one quotient that is rounded toward zero. A
change of sign on either side is a change of its sign, and by a positive divisor a greater dividend
never has a smaller quotient. -/
theorem divide_toward_zero (a : Int) {b : Int} (hb : b ≠ 0) :
    divide a b = .ok (truncDiv a b) ∧
      (∃! r, Truncates a b (truncDiv a b) r) ∧
      (∀ q r, Truncates a b q r → q = truncDiv a b) ∧
      truncDiv (-a) b = -truncDiv a b ∧ truncDiv a (-b) = -truncDiv a b ∧
      ∀ d, 0 < d → Monotone (truncDiv · d) := by
  have h : Truncates a b (truncDiv a b) (a.tmod b) := truncates_tmod a hb
  refine ⟨divide_of_ne_zero a hb, ⟨a.tmod b, h, fun r hr => (hr.unique h).2⟩, fun q r hq => (hq.unique h).1,
    ?_, ?_, fun d hd _ _ => truncDiv_le_truncDiv hd⟩
  · exact ((truncates_tmod (-a) hb).unique h.neg).1
  · exact ((truncates_tmod a (neg_ne_zero.2 hb)).unique h.neg_divisor).1

/-- An overhead of 10 milliseconds over 5251 hundredths of a move takes 525 from the clock, and not
526. -/
theorem divide_overhead :
    (100 : Int) ≠ 0 ∧ divide (-52510) 100 = .ok (-525) ∧ Truncates (-52510) 100 (-525) (-10) ∧
      (∀ q r, Truncates (-52510) 100 q r → q = -525) ∧ truncDiv 52510 100 = 525 ∧
      truncDiv (-52510) (-100) = 525 ∧ truncDiv (-52510) 100 ≤ truncDiv (-52409) 100 := by
  have hb : (100 : Int) ≠ 0 := by decide
  obtain ⟨hok, ⟨r, hr, -⟩, hunique, hneg, hdivisor, hmono⟩ := divide_toward_zero (-52510) hb
  have hq : truncDiv (-52510) 100 = -525 := by decide
  rw [hq] at hok hr hunique hneg hdivisor
  obtain rfl : r = -10 := by
    have heq := hr.eq
    omega
  exact ⟨hb, hok, hr, hunique, hneg, hdivisor, hmono 100 (by decide) (by decide)⟩

end Zeitnot
