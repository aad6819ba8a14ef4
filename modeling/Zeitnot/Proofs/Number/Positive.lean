import Zeitnot.Proofs.Number.Quotient
/-!
Numbers that stay positive. An integer from one on, divided by a number of moderate size or added to
a positive number, is not rounded down to zero.
-/
set_option autoImplicit false

namespace Zeitnot.Number.Binary64
open Float.Model UnpackedFloat

/-! ### Rounding keeps a mantissa that is large enough -/

theorem mantissa_shiftRight (em : ExtendedMantissa) (n : Nat) :
    (em >>> n).mantissa = em.mantissa / 2 ^ n := by
  induction n with
  | zero => simp [HShiftRight.hShiftRight, Nat.repeat]
  | succ n ih =>
    have hstep : (em >>> (n + 1)).mantissa = (em >>> n).mantissa / 2 := rfl
    rw [hstep, ih, Nat.div_div_eq_div_mul, Nat.pow_succ]

theorem mantissa_ofMantissaAndAccuracy (m : Nat) (acc : Accuracy) :
    (ExtendedMantissa.ofMantissaAndAccuracy m acc).mantissa = m := by
  rcases acc with _ | order
  · rfl
  · cases order <;> rfl

theorem le_roundedMantissa (em : ExtendedMantissa) : em.mantissa ≤ em.roundedMantissa := by
  obtain ⟨m, r, s⟩ := em
  cases r <;> cases s <;>
    simp [ExtendedMantissa.roundedMantissa, ExtendedMantissa.accuracy, Accuracy.roundToNearestEven]

/-- What is shifted out of a number that the format can hold are not all of its bits. -/
theorem shiftToTargetExponent_pos {m : Nat} {e : Int} (hm : 0 < m) (he : -1074 ≤ e + m.log2)
    (acc : Accuracy) :
    let r := shiftToTargetExponent Format.binary64 m e acc
    0 < r.1.mantissa ∧ r.1.mantissa < 2 ^ 53 ∧ -1074 ≤ r.2 := by
  let n := (Format.binary64.targetExponent (totalExponent m e) - e).toNat
  have htarget : Format.binary64.targetExponent (totalExponent m e) =
      max (m.log2 + e - 52) (-1074) := by
    simp only [Format.targetExponent, totalExponent, Format.mantissaBits, Format.minExponent]
    norm_num
    congr 1
    omega
  have hn : (n : Int) = max (max (m.log2 + e - 52) (-1074) - e) 0 := by
    simp only [n, htarget, Int.toNat_eq_max]
  have hmantissa : (shiftToTargetExponent Format.binary64 m e acc).1.mantissa = m / 2 ^ n := by
    simp only [shiftToTargetExponent, shiftToExponent, mantissa_shiftRight,
      mantissa_ofMantissaAndAccuracy]
    rfl
  have hexponent : (shiftToTargetExponent Format.binary64 m e acc).2 = e + n := rfl
  have hlow : 2 ^ m.log2 ≤ m := Nat.log2_self_le hm.ne'
  have hhigh : m < 2 ^ (m.log2 + 1) := Nat.lt_log2_self
  refine ⟨?_, ?_, by omega⟩
  · rw [hmantissa]
    exact Nat.div_pos ((Nat.pow_le_pow_right two_pos (by omega)).trans hlow) (Nat.two_pow_pos n)
  · rw [hmantissa, Nat.div_lt_iff_lt_mul (Nat.two_pow_pos n), ← Nat.pow_add]
    exact hhigh.trans_le (Nat.pow_le_pow_right two_pos (by omega))

theorem roundWithAccuracy_pos (s : Sign) {m : Nat} {e : Int} (hm : 0 < m)
    (he : -1074 ≤ e + m.log2) (acc : Accuracy) :
    ∃ m' e' hm', roundWithAccuracy Format.binary64 s m e acc = .finite s m' e' hm' ∧
      m' < 2 ^ 53 ∧ -1074 ≤ e' := by
  obtain ⟨hfirst, -, hexponent⟩ := shiftToTargetExponent_pos hm he acc
  have hrounded := hfirst.trans_le (le_roundedMantissa _)
  obtain ⟨hm', hlt, he'⟩ := shiftToTargetExponent_pos hrounded
    (hexponent.trans (Int.le_add_of_nonneg_right (Int.natCast_nonneg _))) .exact
  refine ⟨_, _, hm', ?_, hlt, he'⟩
  exact dif_neg hm'.ne'

/-! ### Positive numbers -/

def IsPositive : UnpackedFloat → Prop
  | .infinity .positive | .finite .positive .. => True
  | _ => False

theorem isPositive_unpack_packComponents {e : BitVec 11} {m : BitVec 52}
    (hzero : e = 0#11 → m ≠ 0#52) (hnumber : e = -1#11 → m = 0#52) :
    IsPositive (unpack Format.binary64 (packComponents Format.binary64 .positive e m)) := by
  unfold UnpackedFloat.unpack
  simp only [unpackMantissa_packComponents, unpackExponent_packComponents,
    unpackSign_packComponents, Sign.ofBitVec_toBitVec]
  split
  · rename_i htop
    rw [if_pos (hnumber htop)]
    trivial
  · split
    · rename_i hsub
      rw [dif_neg (hzero hsub)]
      trivial
    · trivial

theorem isPositive_unpack_pack {m : Nat} {e : Int} (hm : 0 < m) (hlt : m < 2 ^ 53)
    (he : -1074 ≤ e) :
    IsPositive (unpack Format.binary64 (pack Format.binary64 (.finite .positive m e hm))) := by
  have hbias : Format.binary64.exponentBias = 1023 := rfl
  unfold UnpackedFloat.pack
  simp only [hbias]
  split
  · exact isPositive_unpack_packComponents (fun h => absurd h (by decide)) fun _ => rfl
  · rename_i hfield
    split
    · refine isPositive_unpack_packComponents (fun h => ?_) fun h => ?_ <;>
        (have hnat := congrArg BitVec.toNat h; simp at hnat; omega)
    · rename_i hbits
      refine isPositive_unpack_packComponents (fun _ h => ?_) fun h => absurd h (by decide)
      have hlog : m.log2 < 52 := by
        have := (Nat.log2_lt hm.ne').2 hlt
        simp only [Format.mantissaBits] at hbits
        omega
      have hm52 : m < 2 ^ 52 := (Nat.log2_lt hm.ne').1 hlog
      have hnat := congrArg BitVec.toNat h
      simp at hnat
      omega

theorem toModel_zero : (0.0 : Float).toModel.unpack = .zero .positive := rfl

theorem isPositive_iff {x : Float} : 0.0 < x ↔ IsPositive x.toModel.unpack := by
  have hlt : (0.0 < x) ↔ (UnpackedFloat.zero .positive).lt x.toModel.unpack = true := by
    rw [← toModel_zero]
    exact decide_eq_true_iff
  rw [hlt]
  rcases x.toModel.unpack with s | _ | s | ⟨s, m, e, hm⟩ <;> try cases s
  all_goals simp [UnpackedFloat.lt, UnpackedFloat.compare, IsPositive]

theorem beq_zero_of_pos {x : Float} (h : 0.0 < x) : (x == 0.0) = false := by
  have hbeq : (x == 0.0) = x.toModel.unpack.beq (.zero .positive) := by
    rw [← toModel_zero]
    rfl
  rw [hbeq]
  rw [isPositive_iff] at h
  rcases hx : x.toModel.unpack with s | _ | s | ⟨s, m, e, hm⟩ <;> rw [hx] at h
  all_goals try cases s
  all_goals simp_all [UnpackedFloat.beq, UnpackedFloat.compare, IsPositive]

/-! ### Integers from one on -/

def IsLarge : UnpackedFloat → Prop
  | .infinity .positive => True
  | .finite .positive m e _ => 0 ≤ e + m.log2
  | _ => False

theorem isPositive_of_isLarge {x : UnpackedFloat} (h : IsLarge x) : IsPositive x := by
  rcases x with s | _ | s | ⟨s, m, e, hm⟩ <;> try cases s
  all_goals trivial

theorem nearestBits_le (n d : Nat) : nearestBits n d ≤ topField * exponentWeight := by
  unfold nearestBits
  split
  · exact Nat.zero_le _
  · exact min_le_right _ _

theorem le_roundHalfEven {n d m : Nat} (hd : 0 < d) (h : m * d ≤ n) : m ≤ roundHalfEven n d := by
  have hdiv : m ≤ n / d := (Nat.le_div_iff_mul_le hd).2 h
  unfold roundHalfEven
  dsimp only
  split_ifs <;> omega

theorem le_significand {n k : Nat} (h : 2 ^ k ≤ n) :
    2 ^ 52 ≤ roundHalfEven (scaled n 2 (-((k : Int) - 52))).1
      (1 * (scaled n 2 (-((k : Int) - 52))).2) := by
  have hpos : 0 < (scaled n 2 (-((k : Int) - 52))).2 := scaled_snd_pos n two_pos _
  refine le_roundHalfEven (by omega) ?_
  have hlow : (2 : ℚ) ^ 52 ≤ n * (2 : ℚ) ^ (-((k : Int) - 52)) :=
    calc (2 : ℚ) ^ 52 = (2 : ℚ) ^ (k : Int) * (2 : ℚ) ^ (-((k : Int) - 52)) := by
          rw [← zpow_add₀ (by norm_num)]
          norm_num
      _ ≤ n * (2 : ℚ) ^ (-((k : Int) - 52)) := by
          gcongr
          exact_mod_cast h
  have hle : (2 : ℚ) ^ 52 * (scaled n 2 (-((k : Int) - 52))).2 ≤
      (scaled n 2 (-((k : Int) - 52))).1 := by
    rw [cast_scaled n two_pos]
    push_cast
    gcongr
  rw [one_mul]
  exact_mod_cast hle

/-- The bits of one are the least that an integer has. -/
theorem le_nearestBits {n : Nat} (hn : 0 < n) : 1023 * exponentWeight ≤ nearestBits n 1 := by
  obtain ⟨k, hk⟩ : ∃ k, Nat.log2 n = k := ⟨_, rfl⟩
  have hlog : 2 ^ k ≤ n := hk ▸ Nat.log2_self_le hn.ne'
  have hscaled : scaled 1 2 k = (2 ^ k, 1) := by simp [scaled]
  have hsignificand := le_significand hlog
  have hone : Nat.log2 1 = 0 := by decide
  unfold nearestBits
  rw [if_neg hn.ne', hk, hone]
  simp only [Nat.cast_zero, sub_zero, hscaled, mul_one, if_neg (not_lt.2 hlog)]
  have hexponent : max ((k : Int) - 52) leastExponent = k - 52 :=
    max_eq_left (by simp only [leastExponent]; omega)
  have hfield : 1022 ≤ ((k : Int) - 52 - leastExponent).toNat := by
    simp only [leastExponent]
    omega
  have hweight : exponentWeight = 2 ^ 52 := rfl
  have htop : topField = 2047 := rfl
  rw [hexponent, hweight, htop]
  refine le_min ?_ (by norm_num)
  have hmul := Nat.mul_le_mul_right (2 ^ 52) hfield
  omega

theorem log2_append (m : BitVec 52) : (1#1 ++ m).toNat.log2 = 52 := by
  have hvalue : (1#1 ++ m).toNat = 2 ^ 52 + m.toNat := by
    rw [BitVec.toNat_append, ← Nat.shiftLeft_add_eq_or_of_lt m.isLt]
    simp
  rw [hvalue, Nat.log2_eq_iff (by positivity)]
  have hlt := m.isLt
  omega

theorem isLarge_unpack {b : BitVec 64} (hlow : 1023 * exponentWeight ≤ b.toNat)
    (hhigh : b.toNat ≤ topField * exponentWeight) :
    IsLarge (UnpackedFloat.unpack Format.binary64 b) := by
  have hweight : exponentWeight = 4503599627370496 := rfl
  have htop : topField = 2047 := rfl
  rw [hweight, htop] at hhigh
  rw [hweight] at hlow
  have hexponent : (@unpackExponent Format.binary64 b).toNat = b.toNat / 4503599627370496 := by
    rw [toNat_unpackExponent, field, hweight, htop]
    omega
  have hmantissa : (@unpackMantissa Format.binary64 b).toNat = b.toNat % 4503599627370496 := by
    simp [unpackMantissa, BitVec.extractLsb_toNat]
  have hsign : @unpackSign Format.binary64 b = 0#1 := by
    apply BitVec.eq_of_toNat_eq
    simp [unpackSign, BitVec.extractLsb_toNat, Nat.shiftRight_eq_div_pow]
    omega
  unfold UnpackedFloat.unpack
  simp only [hsign]
  split
  · rename_i hinfinite
    have hzero : @unpackMantissa Format.binary64 b = 0#52 := by
      apply BitVec.eq_of_toNat_eq
      rw [hinfinite] at hexponent
      rw [hmantissa]
      simp at hexponent ⊢
      omega
    rw [if_pos hzero]
    trivial
  · split
    · rename_i hzero
      rw [hzero] at hexponent
      simp at hexponent
      omega
    · show (0 : Int) ≤ _ + (1#1 ++ @unpackMantissa Format.binary64 b).toNat.log2
      rw [log2_append, hexponent]
      have hbias : Format.binary64.exponentBias = 1023 := rfl
      rw [hbias]
      omega

theorem isLarge_ofInt {i : Int} (hi : 0 < i) : IsLarge (ofInt i).toModel.unpack := by
  have hlow := le_nearestBits (show 0 < i.natAbs by omega)
  have hhigh := nearestBits_le i.natAbs 1
  obtain ⟨w, hw⟩ : ∃ w, w = UInt64.ofNat (nearestBits i.natAbs 1) := ⟨_, rfl⟩
  have hbits : w.toBitVec.toNat = nearestBits i.natAbs 1 := by
    have hweight : exponentWeight = 4503599627370496 := rfl
    have htop : topField = 2047 := rfl
    rw [hweight, htop] at hhigh
    rw [hw, UInt64.toNat_toBitVec, UInt64.toNat_ofNat']
    omega
  have hlarge : IsLarge (UnpackedFloat.unpack Format.binary64 w.toBitVec) :=
    isLarge_unpack (hbits ▸ hlow) (hbits ▸ hhigh)
  have hint : ofInt i = Float.ofBits w := by
    rw [ofInt, ofQuotient, hw, decide_eq_false (by omega : ¬ i < 0)]
    simp
  have hpack : UnpackedFloat.pack Format.binary64 (UnpackedFloat.unpack Format.binary64 w.toBitVec)
      = w.toBitVec := by
    have hnumber : ¬ @isNaNBits Format.binary64 w.toBitVec = true := fun hnan => by
      obtain ⟨htop, hmantissa⟩ := of_decide_eq_true hnan
      simp [UnpackedFloat.unpack, htop, hmantissa, IsLarge] at hlarge
    rw [pack_unpack, if_neg hnumber]
  have hunpack : (Float.ofBits w).toModel.unpack =
      UnpackedFloat.unpack Format.binary64 w.toBitVec :=
    congrArg (UnpackedFloat.unpack Format.binary64) hpack
  rw [hint, hunpack]
  exact hlarge

/-! ### Quotients and sums -/

theorem log2_shiftLeft {m : Nat} (hm : 0 < m) (n : Nat) : (m <<< n).log2 = m.log2 + n := by
  rw [Nat.shiftLeft_eq, Nat.log2_eq_iff (by positivity)]
  have hlow : 2 ^ m.log2 ≤ m := Nat.log2_self_le hm.ne'
  have hhigh : m < 2 ^ (m.log2 + 1) := Nat.lt_log2_self
  rw [Nat.pow_add, show m.log2 + n + 1 = m.log2 + 1 + n by omega, Nat.pow_add]
  exact ⟨Nat.mul_le_mul_right _ hlow, Nat.mul_lt_mul_of_pos_right hhigh (Nat.two_pow_pos n)⟩

theorem log2_mono {m n : Nat} (hm : 0 < m) (h : m ≤ n) : m.log2 ≤ n.log2 :=
  (Nat.le_log2 (by omega)).2 ((Nat.log2_self_le hm.ne').trans h)

theorem divCore_pos {m₁ m₂ : Nat} {e₁ e₂ : Int} (hm₁ : 0 < m₁) (hm₂ : 0 < m₂)
    (hx : 0 ≤ e₁ + m₁.log2) (hy : e₂ + m₂.log2 ≤ 1000) :
    let r := divCore Format.binary64 m₁ e₁ m₂ e₂
    0 < r.1 ∧ -1074 ≤ r.2.1 + r.1.log2 := by
  let t := min (e₁ - e₂)
    (Format.binary64.targetExponent (totalExponent m₁ e₁ - totalExponent m₂ e₂))
  let n := (e₁ - e₂ - t).toNat
  have htarget : Format.binary64.targetExponent (totalExponent m₁ e₁ - totalExponent m₂ e₂) =
      (m₁.log2 + e₁) - (m₂.log2 + e₂) - 53 := by
    simp only [Format.targetExponent, totalExponent, Format.mantissaBits, Format.minExponent]
    norm_num
    omega
  have hn : (n : Int) = e₁ - e₂ - t := Int.toNat_of_nonneg (by omega)
  have hshift : m₂.log2 + 53 ≤ m₁.log2 + n := by omega
  have hquotient : 2 ^ (m₁.log2 + n - (m₂.log2 + 1)) ≤ (m₁ <<< n) / m₂ := by
    rw [Nat.le_div_iff_mul_le hm₂, Nat.shiftLeft_eq]
    calc 2 ^ (m₁.log2 + n - (m₂.log2 + 1)) * m₂
        ≤ 2 ^ (m₁.log2 + n - (m₂.log2 + 1)) * 2 ^ (m₂.log2 + 1) :=
          Nat.mul_le_mul_left _ Nat.lt_log2_self.le
      _ = 2 ^ m₁.log2 * 2 ^ n := by
          rw [← Nat.pow_add, ← Nat.pow_add]
          congr 1
          omega
      _ ≤ m₁ * 2 ^ n := Nat.mul_le_mul_right _ (Nat.log2_self_le hm₁.ne')
  have hpos : 0 < (m₁ <<< n) / m₂ := (Nat.two_pow_pos _).trans_le hquotient
  refine ⟨hpos, ?_⟩
  have hlog : m₁.log2 + n - (m₂.log2 + 1) ≤ ((m₁ <<< n) / m₂).log2 :=
    (Nat.le_log2 hpos.ne').2 hquotient
  show -1074 ≤ t + (((m₁ <<< n) / m₂).log2 : Int)
  omega

def packed (x : UnpackedFloat) : UnpackedFloat :=
  UnpackedFloat.unpack Format.binary64 (UnpackedFloat.pack Format.binary64 x)

theorem toModel_div (x y : Float) : (x / y).toModel.unpack =
    packed (UnpackedFloat.div Format.binary64 x.toModel.unpack y.toModel.unpack) := rfl

theorem toModel_add (x y : Float) : (x + y).toModel.unpack =
    packed (UnpackedFloat.add Format.binary64 x.toModel.unpack y.toModel.unpack) := rfl

theorem isPositive_packed_infinity : IsPositive (packed (.infinity .positive)) :=
  isPositive_unpack_packComponents (fun h => absurd h (by decide)) fun _ => rfl

theorem round_pos (s : Sign) {m : Nat} {e : Int} (hm : 0 < m) (he : -1074 ≤ e + m.log2) :
    ∃ m' e' hm', round Format.binary64 s m e = .finite s m' e' hm' ∧
      m' < 2 ^ 53 ∧ -1074 ≤ e' := by
  refine roundWithAccuracy_pos s (Nat.shiftLeft_pos_iff.2 hm) ?_ .exact
  rw [log2_shiftLeft hm]
  omega

section
variable {m₁ m₂ : Nat} {e₁ e₂ : Int}

theorem isPositive_div_finite (hm₁ : 0 < m₁) (hm₂ : 0 < m₂) (hx : 0 ≤ e₁ + m₁.log2)
    (hy : e₂ + m₂.log2 ≤ 1000) :
    IsPositive (packed (UnpackedFloat.div Format.binary64 (.finite .positive m₁ e₁ hm₁)
      (.finite .positive m₂ e₂ hm₂))) := by
  obtain ⟨hpos, hlow⟩ := divCore_pos hm₁ hm₂ hx hy
  obtain ⟨m, e, hm, hround, hlt, he⟩ := roundWithAccuracy_pos .positive hpos hlow
    (divCore Format.binary64 m₁ e₁ m₂ e₂).2.2
  have hdiv : UnpackedFloat.div Format.binary64 (.finite .positive m₁ e₁ hm₁)
      (.finite .positive m₂ e₂ hm₂) = .finite .positive m e hm := hround
  rw [hdiv]
  exact isPositive_unpack_pack hm hlt he

theorem isPositive_add_finite (hm₁ : 0 < m₁) (hm₂ : 0 < m₂) (hx : 0 ≤ e₁ + m₁.log2) :
    IsPositive (packed (UnpackedFloat.add Format.binary64 (.finite .positive m₁ e₁ hm₁)
      (.finite .positive m₂ e₂ hm₂))) := by
  let n := (e₁ - min e₁ e₂).toNat
  let sum := (m₁ <<< n) + (m₂ <<< (e₂ - min e₁ e₂).toNat)
  have hfirst : 0 < m₁ <<< n := Nat.shiftLeft_pos_iff.2 hm₁
  have hlog : m₁.log2 + n ≤ sum.log2 := by
    rw [← log2_shiftLeft hm₁]
    exact log2_mono hfirst (Nat.le_add_right _ _)
  have hlow : -1074 ≤ min e₁ e₂ + sum.log2 := by omega
  have hsum : 0 < sum := Nat.add_pos_left hfirst _
  obtain ⟨m, e, hm, hround, hlt, he⟩ := round_pos .positive hsum hlow
  have hadd : UnpackedFloat.add Format.binary64 (.finite .positive m₁ e₁ hm₁)
      (.finite .positive m₂ e₂ hm₂) = .finite .positive m e hm := by
    rw [← hround]
    show UnpackedFloat.normalize Format.binary64 (sum : Nat) (min e₁ e₂) .positive = _
    unfold UnpackedFloat.normalize
    rw [Int.compare_eq_gt.2 (Int.natCast_pos.2 hsum)]
    rfl
  rw [hadd]
  exact isPositive_unpack_pack hm hlt he

end

theorem div_pos_of_isLarge {x y : Float} (hx : IsLarge x.toModel.unpack) {m : Nat} {e : Int}
    {hm : 0 < m} (hy : y.toModel.unpack = .finite .positive m e hm) (hsize : e + m.log2 ≤ 1000) :
    0.0 < x / y := by
  rw [isPositive_iff, toModel_div, hy]
  rcases hx' : x.toModel.unpack with s | _ | s | ⟨s, m₁, e₁, hm₁⟩ <;> rw [hx'] at hx
  case notANumber | zero => exact hx.elim
  all_goals
    cases s
    case negative => exact hx.elim
  case infinity => exact isPositive_packed_infinity
  case finite => exact isPositive_div_finite hm₁ hm hx hsize

theorem add_pos_of_isLarge {x y : Float} (hx : IsLarge x.toModel.unpack) (hy : 0.0 < y) :
    0.0 < x + y := by
  rw [isPositive_iff] at hy ⊢
  rw [toModel_add]
  rcases hx' : x.toModel.unpack with s | _ | s | ⟨s, m₁, e₁, hm₁⟩ <;> rw [hx'] at hx
  case notANumber | zero => exact hx.elim
  all_goals
    cases s
    case negative => exact hx.elim
    rcases hy' : y.toModel.unpack with s | _ | s | ⟨s, m₂, e₂, hm₂⟩ <;> rw [hy'] at hy
    case notANumber | zero => exact hy.elim
    all_goals
      cases s
      case negative => exact hy.elim
  case finite.positive.finite => exact isPositive_add_finite hm₁ hm₂ hx
  all_goals exact isPositive_packed_infinity

theorem zero_add_pos {y : Float} (hy : 0.0 < y) : 0.0 < ofInt 0 + y := by
  have hzero : (ofInt 0).toModel.unpack = .zero .positive := rfl
  have hpack : packed y.toModel.unpack = y.toModel.unpack :=
    congrArg (UnpackedFloat.unpack Format.binary64) (pack_unpack_of_valid y.toModel.valid)
  rw [isPositive_iff] at hy ⊢
  rw [toModel_add, hzero]
  rcases hy' : y.toModel.unpack with s | _ | s | ⟨s, m, e, hm⟩ <;> rw [hy'] at hy hpack
  case notANumber | zero => exact hy.elim
  all_goals
    rw [← hpack] at hy
    exact hy

theorem ofInt_pos {i : Int} (hi : 0 < i) : 0.0 < ofInt i :=
  isPositive_iff.2 (isPositive_of_isLarge (isLarge_ofInt hi))

theorem ofInt_add_pos {i : Int} (hi : 0 ≤ i) {y : Float} (hy : 0.0 < y) : 0.0 < ofInt i + y := by
  rcases hi.eq_or_lt with rfl | hi
  · exact zero_add_pos hy
  · exact add_pos_of_isLarge (isLarge_ofInt hi) hy

theorem ofInt_div_thousand_pos {i : Int} (hi : 0 < i) : 0.0 < ofInt i / ofInt 1000 := by
  obtain ⟨m, e, hm, hthousand, hsize⟩ : ∃ m e hm,
      (ofInt 1000).toModel.unpack = .finite .positive m e hm ∧ e + m.log2 ≤ 1000 :=
    ⟨1000 * 2 ^ 43, -43, by norm_num, rfl, by decide +kernel⟩
  exact div_pos_of_isLarge (isLarge_ofInt hi) hthousand hsize

end Zeitnot.Number.Binary64
