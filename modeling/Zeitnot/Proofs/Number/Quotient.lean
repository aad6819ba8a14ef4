import Mathlib
import Zeitnot.Number.Scalar
set_option autoImplicit false

namespace Zeitnot.Number

theorem scaled_snd_pos (n : Nat) {b : Nat} (hb : 0 < b) (e : Int) : 0 < (scaled n b e).2 := by
  unfold scaled
  split
  · exact Nat.one_pos
  · exact Nat.pow_pos hb

theorem cast_scaled (n : Nat) {b : Nat} (hb : 0 < b) (e : Int) :
    ((scaled n b e).1 : ℚ) = n * (b : ℚ) ^ e * (scaled n b e).2 := by
  have hb' : (b : ℚ) ≠ 0 := Nat.cast_ne_zero.2 hb.ne'
  unfold scaled
  split
  case isTrue he =>
    obtain ⟨m, rfl⟩ := Int.eq_ofNat_of_zero_le he
    simp
  case isFalse he =>
    obtain ⟨m, rfl⟩ : ∃ m : Nat, e = -m := ⟨(-e).toNat, by omega⟩
    simp [hb']

theorem roundHalfEven_le {n d m : Nat} (hd : 0 < d) (h : n < m * d) : roundHalfEven n d ≤ m := by
  obtain ⟨hle, -⟩ := two_mul_dist_roundHalfEven_le n d hd
  have hmul : 2 * (roundHalfEven n d * d) < (2 * m + 1) * d := by nlinarith
  have hlt : 2 * roundHalfEven n d < 2 * m + 1 := by
    refine Nat.lt_of_mul_lt_mul_right (a := d) ?_
    rwa [← Nat.mul_assoc] at hmul
  omega

namespace Binary64

/-! ### Exponents of quotients -/

/-- The power of two that a quotient is about as large as. -/
def magnitude (n d : Nat) : Int := (Nat.log2 n : Int) - Nat.log2 d

theorem lt_two_zpow_magnitude {n d : Nat} (hd : d ≠ 0) :
    (n : ℚ) < d * (2 : ℚ) ^ (magnitude n d + 1) := by
  have hn : (n : ℚ) < (2 : ℚ) ^ ((Nat.log2 n : Int) + 1) := by
    have := Nat.lt_log2_self (n := n)
    exact_mod_cast this
  have hd' : (2 : ℚ) ^ (Nat.log2 d : Int) ≤ d := by
    have := Nat.log2_self_le hd
    exact_mod_cast this
  calc (n : ℚ) < (2 : ℚ) ^ ((Nat.log2 n : Int) + 1) := hn
    _ = (2 : ℚ) ^ (Nat.log2 d : Int) * (2 : ℚ) ^ (magnitude n d + 1) := by
        rw [← zpow_add₀ (by norm_num), magnitude]
        congr 1
        ring
    _ ≤ d * (2 : ℚ) ^ (magnitude n d + 1) := by gcongr

theorem magnitude_le {n d k : Nat} (hn : n < 2 ^ k) : magnitude n d ≤ k := by
  have hlog : Nat.log2 n ≤ k := by
    rcases Nat.eq_zero_or_pos n with rfl | hpos
    · simp
    · exact ((Nat.log2_lt hpos.ne').2 hn).le
  unfold magnitude
  omega

/-- The significand of a quotient, once the exponent is chosen, has at most one bit too many. -/
theorem significand_le {n d : Nat} (hd : d ≠ 0) {e : Int} (he : magnitude n d - 53 ≤ e) :
    roundHalfEven (scaled n 2 (-e)).1 (d * (scaled n 2 (-e)).2) ≤ 2 ^ 54 := by
  have ht : 0 < (scaled n 2 (-e)).2 := scaled_snd_pos n (by norm_num) (-e)
  refine roundHalfEven_le (Nat.mul_pos (Nat.pos_of_ne_zero hd) ht) ?_
  have hpow : (2 : ℚ) ^ (magnitude n d + 1) * (2 : ℚ) ^ (-e) ≤ 2 ^ 54 := by
    rw [← zpow_add₀ (by norm_num)]
    calc (2 : ℚ) ^ (magnitude n d + 1 + -e) ≤ (2 : ℚ) ^ (54 : Int) :=
          zpow_le_zpow_right₀ (by norm_num) (by omega)
      _ = 2 ^ 54 := by norm_num
  have hs : ((scaled n 2 (-e)).1 : ℚ) < 2 ^ 54 * (d * (scaled n 2 (-e)).2) := by
    have hn := lt_two_zpow_magnitude (n := n) hd
    calc ((scaled n 2 (-e)).1 : ℚ)
        = n * (2 : ℚ) ^ (-e) * (scaled n 2 (-e)).2 := by
          simpa using cast_scaled n (b := 2) (by norm_num) (-e)
      _ < d * (2 : ℚ) ^ (magnitude n d + 1) * (2 : ℚ) ^ (-e) * (scaled n 2 (-e)).2 := by
          gcongr
      _ = (2 : ℚ) ^ (magnitude n d + 1) * (2 : ℚ) ^ (-e) * (d * (scaled n 2 (-e)).2) := by ring
      _ ≤ 2 ^ 54 * (d * (scaled n 2 (-e)).2) := by gcongr
  exact_mod_cast hs

theorem nearestBits_lt {n d k : Nat} (hd : d ≠ 0) (hn : n < 2 ^ k) (hk : k ≤ 1010) :
    nearestBits n d < topField * exponentWeight := by
  have hbits {e : Int}
      (he : magnitude n d - 53 ≤ e ∧ e ≤ max (magnitude n d - 52) leastExponent) :
      (e - leastExponent).toNat * exponentWeight +
        roundHalfEven (scaled n 2 (-e)).1 (d * (scaled n 2 (-e)).2) <
          topField * exponentWeight := by
    have hs := significand_le hd he.1
    have hn : magnitude n d ≤ k := magnitude_le hn
    have hfield : (e - leastExponent).toNat ≤ 2032 := by
      simp only [leastExponent] at he ⊢
      omega
    have hweight : exponentWeight = 2 ^ 52 := rfl
    have htop : topField = 2047 := rfl
    rw [hweight, htop]
    nlinarith
  unfold nearestBits
  split
  · simp [topField, exponentWeight]
  · refine lt_of_le_of_lt (min_le_left _ _) (hbits ?_)
    have hmagnitude : (Nat.log2 n : Int) - Nat.log2 d = magnitude n d := rfl
    simp only [hmagnitude]
    split <;> omega

/-! ### Finite numbers -/

def field (bits : Nat) : Nat := bits / exponentWeight % (topField + 1)

theorem decodeBits_of_field {bits : Nat} (h : field bits ≠ topField) :
    ∃ negative m q, decodeBits bits = .finite negative m q := by
  unfold decodeBits
  extract_lets negative f fraction
  rw [if_neg (show f ≠ topField from h)]
  split
  · exact ⟨_, _, _, rfl⟩
  · exact ⟨_, _, _, rfl⟩

open Float.Model UnpackedFloat

theorem toNat_unpackExponent (b : BitVec 64) :
    (@unpackExponent Format.binary64 b).toNat = field b.toNat := by
  simp [unpackExponent, field, exponentWeight, topField, BitVec.extractLsb_toNat,
    Nat.shiftRight_eq_div_pow]

theorem pack_unpack_of_finite {b : BitVec 64} (h : @unpackExponent Format.binary64 b ≠ -1#11) :
    pack Format.binary64 (unpack Format.binary64 b) = b := by
  have hnumber : ¬ @isNaNBits Format.binary64 b = true := fun hnan =>
    h (of_decide_eq_true hnan).1
  rw [pack_unpack, if_neg hnumber]

theorem isFinite_ofBits {w : UInt64} (h : field w.toNat ≠ topField) :
    isFinite (Float.ofBits w) = true := by
  have htop : @unpackExponent Format.binary64 w.toBitVec = -1#11 ↔ field w.toNat = topField := by
    rw [← BitVec.toNat_inj, toNat_unpackExponent]
    rfl
  have hbits : (Float.ofBits w).toBits = w :=
    UInt64.toBitVec_inj.1 (pack_unpack_of_finite (mt htop.1 h))
  obtain ⟨negative, m, q, hdecode⟩ := decodeBits_of_field h
  rw [isFinite, decode, hbits, hdecode]

theorem isFinite_ofQuotient (negative : Bool) {n d : Nat} (hd : d ≠ 0) {k : Nat}
    (hn : n < 2 ^ k) (hk : k ≤ 1010) : isFinite (ofQuotient negative n d) = true := by
  have hbits := nearestBits_lt hd hn hk
  refine isFinite_ofBits ?_
  rw [UInt64.toNat_ofNat']
  have hweight : exponentWeight = 4503599627370496 := rfl
  have hsign : signWeight = 9223372036854775808 := rfl
  simp only [field, topField, hweight, hsign] at hbits ⊢
  cases negative <;> simp only [if_true, if_false, Bool.false_eq_true] <;> omega

theorem exists_quotient {a b : Int} {k : Nat} (ha : a.natAbs < 2 ^ k) (hk : k ≤ 1010)
    (hb : b ≠ 0) : ∃ x, Scalar.quotient (S := Float) a b = .ok x := by
  have hfinite := isFinite_ofQuotient (decide (a < 0) != decide (b < 0))
    (Int.natAbs_ne_zero.2 hb) ha hk
  refine ⟨ofQuotient (decide (a < 0) != decide (b < 0)) a.natAbs b.natAbs, ?_⟩
  simp only [Scalar.quotient, hb, if_false, checked, hfinite, if_true]

end Binary64
end Zeitnot.Number
