import Mathlib.Analysis.SpecialFunctions.Log.Base
import Mathlib.Analysis.SpecialFunctions.Pow.Real
import Mathlib.Data.EReal.Inv
import Mathlib.Tactic
import Zeitnot.Number.Scalar
/-!
Scalars that are not rounded: the extended reals. An operation on reals gives a real, or the fault
that it has for lack of an answer; no number is too large.
-/
set_option autoImplicit false

namespace Zeitnot.Number
namespace Exact

noncomputable def decimalLog (r : ℝ) : ℝ := Real.logb 10 r

@[simp] theorem decimalLog_one : decimalLog 1 = 0 := Real.logb_one

theorem decimalLog_le {x y : ℝ} (hx : 0 < x) (h : x ≤ y) : decimalLog x ≤ decimalLog y :=
  Real.logb_le_logb_of_le (by norm_num) hx h

theorem decimalLog_nonneg {x : ℝ} (h : 1 ≤ x) : 0 ≤ decimalLog x :=
  Real.logb_nonneg (by norm_num) h

theorem decimalLog_pow (x : ℝ) (n : ℕ) : decimalLog (x ^ n) = n * decimalLog x :=
  Real.logb_pow 10 x n

theorem decimalLog_ten_pow (m : ℕ) : decimalLog (10 ^ m) = m := by
  rw [decimalLog_pow, decimalLog, Real.logb_self_eq_one (by norm_num), mul_one]

theorem decimalLog_lt_div {x : ℝ} (hx : 0 < x) {m n : ℕ} (hn : 0 < n) (h : x ^ n < 10 ^ m) :
    decimalLog x < m / n := by
  have hlog : decimalLog (x ^ n) < decimalLog (10 ^ m) :=
    Real.logb_lt_logb (by norm_num) (pow_pos hx n) h
  rw [decimalLog_ten_pow, decimalLog_pow] at hlog
  rw [lt_div_iff₀ (Nat.cast_pos.2 hn), mul_comm]
  exact hlog

theorem div_lt_decimalLog {x : ℝ} {m n : ℕ} (hn : 0 < n) (h : 10 ^ m < x ^ n) :
    m / n < decimalLog x := by
  have hlog : decimalLog (10 ^ m) < decimalLog (x ^ n) :=
    Real.logb_lt_logb (by norm_num) (by positivity) h
  rw [decimalLog_ten_pow, decimalLog_pow] at hlog
  rw [div_lt_iff₀ (Nat.cast_pos.2 hn), mul_comm]
  exact hlog

noncomputable def towardZero (r : ℝ) : Int := if 0 ≤ r then ⌊r⌋ else ⌈r⌉

noncomputable def halfEven (r : ℝ) : Nat :=
  let n := ⌊r⌋₊
  if r - n < 1 / 2 then n else if 1 / 2 < r - n then n + 1 else n + n % 2

noncomputable def text (places : Nat) (x : EReal) : String :=
  if x = ⊤ then "inf" else if x = ⊥ then "-inf"
  else
    (if x < 0 then "-" else "") ++ pointed places (halfEven (|x.toReal| * (10 : ℝ) ^ places))

open Classical in
/-- A power of zero may be infinite, and one of a negative number has a whole exponent. An infinite
number has no power here. -/
noncomputable def power (x y : EReal) : Except Fault EReal :=
  if x = ⊤ ∨ x = ⊥ ∨ y = ⊤ ∨ y = ⊥ then .error .range
  else if (x = 0 ∧ y < 0) ∨ (x < 0 ∧ ¬ ∃ n : Int, y = ((n : ℝ) : EReal)) then .error .domain
  else .ok ((x.toReal ^ y.toReal : ℝ) : EReal)

end Exact

open Classical Exact in
noncomputable instance : Scalar EReal where
  ofNat n := ((n : ℝ) : EReal)
  ofInt i := .ok ((i : ℝ) : EReal)
  quotient a b := if b = 0 then .error .intDivisionByZero else .ok (((a : ℝ) / (b : ℝ) : ℝ) : EReal)
  add a b := a + b
  sub a b := a - b
  mul a b := a * b
  div a b := if b = 0 then .error .realDivisionByZero else .ok (a / b)
  less a b := decide (a < b)
  isZero a := decide (a = 0)
  infinity := ⊤
  log10 x :=
    if x ≤ 0 then .error .domain else if x = ⊤ then .ok ⊤
    else .ok (decimalLog x.toReal : EReal)
  log10OfInt i := if i ≤ 0 then .error .domain else .ok (decimalLog i : EReal)
  pow := Exact.power
  truncate x := if x = ⊤ ∨ x = ⊥ then .error .infinityToInt else .ok (Exact.towardZero x.toReal)
  fixed := Exact.text

namespace Exact
open Scalar

@[simp] theorem ofNat_eq (n : Nat) : (Scalar.ofNat n : EReal) = ((n : ℝ) : EReal) := rfl

@[simp] theorem ofInt_eq (i : Int) :
    (Scalar.ofInt i : Except Fault EReal) = .ok ((i : ℝ) : EReal) := rfl

@[simp] theorem add_coe (a b : ℝ) : add (a : EReal) b = ((a + b : ℝ) : EReal) :=
  (EReal.coe_add a b).symm

@[simp] theorem sub_coe (a b : ℝ) : sub (a : EReal) b = ((a - b : ℝ) : EReal) :=
  (EReal.coe_sub a b).symm

@[simp] theorem mul_coe (a b : ℝ) : mul (a : EReal) b = ((a * b : ℝ) : EReal) :=
  (EReal.coe_mul a b).symm

@[simp] theorem less_coe (a b : ℝ) : less (a : EReal) b = decide (a < b) := by
  simp [less, EReal.coe_lt_coe_iff]

@[simp] theorem least_coe (a b : ℝ) : least (a : EReal) b = ((min a b : ℝ) : EReal) := by
  unfold least
  rw [less_coe]
  rcases lt_or_ge b a with h | h
  · rw [if_pos (decide_eq_true h), min_eq_right h.le]
  · rw [if_neg (by simpa using h), min_eq_left h]

@[simp] theorem greatest_coe (a b : ℝ) : greatest (a : EReal) b = ((max a b : ℝ) : EReal) := by
  unfold greatest
  rw [less_coe]
  rcases lt_or_ge a b with h | h
  · rw [if_pos (decide_eq_true h), max_eq_right h.le]
  · rw [if_neg (by simpa using h), max_eq_left h]

theorem quotient_eq (a : Int) {b : Int} (h : b ≠ 0) :
    (quotient a b : Except Fault EReal) = .ok (((a : ℝ) / (b : ℝ) : ℝ) : EReal) := if_neg h

theorem div_coe (a : ℝ) {b : ℝ} (h : b ≠ 0) :
    Scalar.div (a : EReal) b = .ok ((a / b : ℝ) : EReal) := by
  rw [EReal.coe_div]
  exact if_neg (EReal.coe_ne_zero.2 h)

theorem log10_coe {a : ℝ} (h : 0 < a) :
    log10 (a : EReal) = .ok (decimalLog a : EReal) := by
  have hpos : ¬ (a : EReal) ≤ 0 := not_le.2 (EReal.coe_pos.2 h)
  exact (if_neg hpos).trans (if_neg (EReal.coe_ne_top a))

theorem log10OfInt_eq {i : Int} (h : 0 < i) :
    (log10OfInt i : Except Fault EReal) = .ok (decimalLog i : EReal) :=
  if_neg (by omega)

theorem pow_coe {a : ℝ} (h : 0 < a) (b : ℝ) :
    Scalar.pow (a : EReal) b = .ok ((a ^ b : ℝ) : EReal) := by
  have hzero : (a : EReal) ≠ 0 := EReal.coe_ne_zero.2 h.ne'
  have hpos : ¬ (a : EReal) < 0 := not_lt.2 (EReal.coe_nonneg.2 h.le)
  simp only [Scalar.pow, power, EReal.coe_ne_top, EReal.coe_ne_bot, hzero, hpos, false_and,
    or_self, if_false, EReal.toReal_coe]

@[simp] theorem truncate_coe (a : ℝ) : truncate (a : EReal) = .ok (towardZero a) := by
  simp only [truncate, EReal.coe_ne_top, EReal.coe_ne_bot, or_self, if_false, EReal.toReal_coe]

end Exact
end Zeitnot.Number
