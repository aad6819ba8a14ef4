import Mathlib.Tactic
import Zeitnot.Proofs.Text.Words
import Zeitnot.Text.Numeral
set_option autoImplicit false

namespace Zeitnot.Text

theorem toNat_of_isDigit {c : Char} (h : c.isDigit = true) : 48 ≤ c.toNat ∧ c.toNat ≤ 57 := by
  simp only [Char.isDigit, Bool.and_eq_true, decide_eq_true_eq, ge_iff_le,
    UInt32.le_iff_toNat_le] at h
  exact h

theorem isBlank_of_isDigit {c : Char} (h : c.isDigit = true) : isBlank c = false := by
  have hc := toNat_of_isDigit h
  simp only [isBlank, Bool.or_eq_false_iff, Bool.and_eq_false_iff, decide_eq_false_iff_not,
    beq_eq_false_iff_ne]
  omega

theorem digitIn?_of_isDigit {c : Char} (h : c.isDigit = true) :
    digitIn? 10 c = some (c.toNat - 48) := by
  have hc := toNat_of_isDigit h
  have hlower : ¬ ('a' ≤ c ∧ c ≤ 'f') := by
    have ha : 'a'.toNat = 97 := rfl
    simp only [Char.le_def, UInt32.le_iff_toNat_le, Char.toNat_val]
    omega
  have hupper : ¬ ('A' ≤ c ∧ c ≤ 'F') := by
    have hA : 'A'.toNat = 65 := rfl
    simp only [Char.le_def, UInt32.le_iff_toNat_le, Char.toNat_val]
    omega
  have hv : digitValue? c = some (c.toNat - 48) := by
    rw [digitValue?, if_pos (by omega), if_pos h]
  have hlt : c.toNat - 48 < 10 := by omega
  simp [digitIn?, hlower, hupper, hv, hlt]

theorem scanDigits_of_isDigit {cs : List Char} (h : ∀ c ∈ cs, c.isDigit = true) (acc count : Nat) :
    scanDigits 10 true acc count cs = some (Nat.ofDigitChars 10 cs acc, count + cs.length, []) := by
  induction cs generalizing acc count with
  | nil => rfl
  | cons c cs ih =>
    have hc := digitIn?_of_isDigit (h c (by simp))
    simp only [scanDigits, hc]
    rw [ih (fun c' hc' => h c' (by simp [hc'])), Nat.ofDigitChars_cons]
    have hlen : count + 1 + cs.length = count + (c :: cs).length := by rw [List.length_cons]; omega
    rw [hlen, Nat.mul_comm acc 10]
    rfl

theorem scanDigits_toDigits (n : Nat) :
    scanDigits 10 false 0 0 (Nat.toDigits 10 n) = some (n, (Nat.toDigits 10 n).length, []) := by
  have hd : ∀ c ∈ Nat.toDigits 10 n, c.isDigit = true := fun c hc =>
    Nat.isDigit_of_mem_toDigits (by decide) (by decide) hc
  cases hn : Nat.toDigits 10 n with
  | nil => exact absurd hn Nat.toDigits_ne_nil
  | cons c cs =>
    rw [hn] at hd
    have hvalue := Nat.ofDigitChars_toDigits (b := 10) (n := n) (by decide) (by decide)
    rw [hn, Nat.ofDigitChars_cons] at hvalue
    simp only [scanDigits, digitIn?_of_isDigit (hd c (by simp))]
    rw [scanDigits_of_isDigit fun c' hc' => hd c' (by simp [hc'])]
    simp at hvalue
    simp [hvalue, Nat.add_comm]

theorem dropWhile_of_forall_not {p : Char → Bool} {cs : List Char} (h : ∀ c ∈ cs, p c = false) :
    cs.dropWhile p = cs := by
  cases cs with
  | nil => rfl
  | cons c cs => rw [List.dropWhile_cons, h c (by simp)]; rfl

theorem trim_of_forall_not {p : Char → Bool} {cs : List Char} (h : ∀ c ∈ cs, p c = false) :
    trim p cs = cs := by
  rw [trim, dropWhile_of_forall_not h,
    dropWhile_of_forall_not fun c hc => h c (List.mem_reverse.1 hc), List.reverse_reverse]

theorem dropBaseMark_ten (cs : List Char) : dropBaseMark 10 cs = cs := by
  unfold dropBaseMark
  split <;> simp

def decimal (i : Int) : List Char :=
  if 0 ≤ i then Nat.toDigits 10 i.natAbs else '-' :: Nat.toDigits 10 i.natAbs

theorem toList_toString (i : Int) : (toString i).toList = decimal i := by
  rw [Int.toString_eq_repr, Int.repr_eq_if, decimal]
  split <;> rename_i hi
  · rw [Nat.toList_repr, show i.toNat = i.natAbs by omega]
  · rw [show (-i).toNat = i.natAbs by omega]
    simp

theorem isBlank_of_mem_decimal {i : Int} {c : Char} (h : c ∈ decimal i) : isBlank c = false := by
  have hd : c ∈ Nat.toDigits 10 i.natAbs → isBlank c = false := fun hc =>
    isBlank_of_isDigit (Nat.isDigit_of_mem_toDigits (by decide) (by decide) hc)
  unfold decimal at h
  split at h
  · exact hd h
  · rcases List.mem_cons.1 h with rfl | h
    · decide
    · exact hd h

theorem splitSign_decimal (i : Int) :
    splitSign (decimal i) = (decide (i < 0), Nat.toDigits 10 i.natAbs) := by
  unfold decimal
  split <;> rename_i hi
  · cases hn : Nat.toDigits 10 i.natAbs with
    | nil => exact absurd hn Nat.toDigits_ne_nil
    | cons c cs =>
      have hc : c.isDigit = true := by
        have hmem : c ∈ Nat.toDigits 10 i.natAbs := by simp [hn]
        exact Nat.isDigit_of_mem_toDigits (by decide) (by decide) hmem
      have hneg : ¬ i < 0 := by omega
      unfold splitSign
      split
      · rename_i heq; cases heq; simp at hc
      · rename_i heq; cases heq; simp at hc
      · simp [hneg]
  · simp [splitSign, Int.not_le.1 hi]

theorem strip_toString (i : Int) : strip (toString i) = toString i := by
  rw [strip, toList_toString, trim_of_forall_not fun c hc => isBlank_of_mem_decimal hc,
    ← toList_toString, String.ofList_toList]

theorem decimal_ne_nil (i : Int) : decimal i ≠ [] := by
  unfold decimal
  split
  · exact Nat.toDigits_ne_nil
  · exact List.cons_ne_nil _ _

theorem words_toString (i : Int) : words (toString i) = [toString i] := by
  refine words_of_forall_not (fun he => decimal_ne_nil i ?_) fun c hc => ?_
  · rw [← toList_toString, he]
    rfl
  · rw [toList_toString] at hc
    exact isBlank_of_mem_decimal hc

theorem readInt_toString {i : Int} (h : i.natAbs < 10 ^ digitLimit) :
    readInt (toString i) = .ok i := by
  have hpads : ∀ c ∈ decimal i, padsNumeral c = false := fun c hc => by
    simp [padsNumeral, isBlank_of_mem_decimal hc]
  have hlen : ¬ digitLimit < (Nat.toDigits 10 i.natAbs).length := by
    have := (Nat.length_toDigits_le_iff (b := 10) (by decide) (by decide : 0 < digitLimit)).2 h
    omega
  rw [readInt, readIntIn, toList_toString, dropWhile_of_forall_not hpads, splitSign_decimal]
  simp only [dropBaseMark_ten, scanDigits_toDigits, hlen, and_false, if_false, List.all_nil,
    if_true, decide_eq_true_eq]
  congr 1
  split <;> omega

end Zeitnot.Text
