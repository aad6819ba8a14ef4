import Mathlib.Tactic
import Zeitnot.Chess.Square
set_option autoImplicit false

namespace Zeitnot.Chess

namespace SquareSet

theorem contains_eq_testBit (s : SquareSet) (q : Square) :
    s.contains q = s.bits.toNat.testBit q.val := by
  have hq := q.isLt
  have hmod : q.val % 2 ^ 64 % 64 = q.val := by omega
  unfold contains
  rw [Nat.testBit, Bool.eq_iff_iff]
  simp only [bne_iff_ne, ne_eq, ← UInt64.toNat_inj, UInt64.toNat_and, UInt64.toNat_shiftRight,
    UInt64.toNat_ofNat', hmod, UInt64.toNat_one, UInt64.toNat_zero, Nat.and_comm]

theorem contains_insert (s : SquareSet) (q t : Square) :
    (s.insert q).contains t = (s.contains t || q == t) := by
  have hq := q.isLt
  have ht := t.isLt
  have hmod : q.val % 2 ^ 64 % 64 = q.val := by omega
  simp only [contains_eq_testBit, insert, UInt64.toNat_or, UInt64.toNat_shiftLeft,
    UInt64.toNat_ofNat', hmod, UInt64.toNat_one, Nat.testBit_or, Nat.testBit_mod_two_pow, ht,
    decide_true, Bool.true_and, Nat.testBit_shiftLeft]
  congr 1
  rw [Bool.eq_iff_iff]
  simp only [Bool.and_eq_true, decide_eq_true_eq, beq_iff_eq, Fin.ext_iff]
  constructor
  · rintro ⟨hle, hb⟩
    have h0 := Nat.testBit_one_eq_true_iff_self_eq_zero.1 hb
    omega
  · intro h
    simp [h]

theorem contains_ofList (qs : List Square) (t : Square) :
    (ofList qs).contains t = true ↔ t ∈ qs := by
  have hfold : ∀ s : SquareSet, (qs.foldl insert s).contains t = true ↔
      s.contains t = true ∨ t ∈ qs := by
    induction qs with
    | nil => simp
    | cons q qs ih =>
      intro s
      rw [List.foldl_cons, ih, contains_insert, Bool.or_eq_true, beq_iff_eq, List.mem_cons,
        or_assoc, eq_comm (a := q)]
  rw [ofList, hfold]
  simp [contains_eq_testBit, empty]

theorem mem_descendFrom {s : SquareSet} {n : Nat} {h : n ≤ 64} {t : Square}
    (ht : t ∈ s.descendFrom n h) : s.contains t = true := by
  induction n with
  | zero => simp [descendFrom] at ht
  | succ n ih =>
    simp only [descendFrom] at ht
    split at ht
    · rename_i hc
      rcases List.mem_cons.1 ht with rfl | ht
      · exact hc
      · exact ih ht
    · exact ih ht

theorem val_lt_of_mem_descendFrom {s : SquareSet} {n : Nat} {h : n ≤ 64} {t : Square}
    (ht : t ∈ s.descendFrom n h) : t.val < n := by
  induction n with
  | zero => simp [descendFrom] at ht
  | succ n ih =>
    simp only [descendFrom] at ht
    split at ht
    · rcases List.mem_cons.1 ht with rfl | ht
      · exact Nat.lt_succ_self n
      · exact (ih ht).trans (Nat.lt_succ_self n)
    · exact (ih ht).trans (Nat.lt_succ_self n)

theorem nodup_descendFrom (s : SquareSet) (n : Nat) (h : n ≤ 64) :
    (s.descendFrom n h).Nodup := by
  induction n with
  | zero => exact List.nodup_nil
  | succ n ih =>
    simp only [descendFrom]
    split
    · exact List.nodup_cons.2 ⟨fun hn => lt_irrefl n (val_lt_of_mem_descendFrom hn), ih _⟩
    · exact ih _

end SquareSet

theorem Square.nodup_sortDown (qs : List Square) : (sortDown qs).Nodup := by
  unfold sortDown SquareSet.descending
  split
  · exact List.nodup_nil
  · exact SquareSet.nodup_descendFrom _ _ _

theorem Square.nodup_descending : descending.Nodup :=
  List.nodup_reverse.2 (List.nodup_finRange 64)

theorem Square.mem_of_mem_sortDown {qs : List Square} {t : Square} (h : t ∈ sortDown qs) :
    t ∈ qs := by
  unfold sortDown SquareSet.descending at h
  split at h
  · simp at h
  · exact (SquareSet.contains_ofList qs t).1 (SquareSet.mem_descendFrom h)

end Zeitnot.Chess
