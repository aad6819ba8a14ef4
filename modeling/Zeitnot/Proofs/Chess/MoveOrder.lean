import Mathlib.Data.List.Sort
import Zeitnot.Proofs.Chess.Generation
import Zeitnot.Proofs.Chess.Material
set_option autoImplicit false

namespace Zeitnot.Chess

namespace Position
variable {p : Position} {m : Move}

/-- What a move captures: a pawn in passing, or else what stands on the square that it goes to. -/
def victim? (p : Position) (m : Move) : Option Kind :=
  if p.isEnPassant m then some .pawn else (p.board.get m.target).map (·.kind)

theorem captureValue_of_victim {k : Kind} (h : p.victim? m = some k) :
    p.captureValue m = k.worth := by
  unfold victim? at h
  unfold captureValue
  split at h
  · rename_i hpassing
    cases h
    rw [if_pos hpassing]
  · rename_i hpassing
    obtain ⟨piece, hpiece, rfl⟩ := Option.map_eq_some_iff.1 h
    rw [if_neg hpassing, hpiece]

theorem captureValue_of_no_victim (h : p.victim? m = none) : p.captureValue m = -1 := by
  unfold victim? at h
  unfold captureValue
  split at h
  · cases h
  · rename_i hpassing
    rw [if_neg hpassing, Option.map_eq_none_iff.1 h]

/-- A move is worth what its victim is, or less than any victim if it has none. -/
structure ValuedByVictim (p : Position) (m : Move) : Prop where
  capture : ∀ k, p.victim? m = some k → p.captureValue m = k.worth
  quiet : p.victim? m = none → ∀ k : Kind, p.captureValue m < k.worth

theorem valuedByVictim (p : Position) (m : Move) : p.ValuedByVictim m := by
  refine ⟨fun k hk => captureValue_of_victim hk, fun hnone k => ?_⟩
  rw [captureValue_of_no_victim hnone]
  exact Int.lt_of_lt_of_le (by decide) k.worth_nonneg

theorem Generated.isOwn_source (h : p.Generated m) : p.isOwn m.source = true := by
  cases h with
  | officer hs _ _ => exact hs
  | castling hk _ => exact hasSide_of_holds hk
  | capture hs _ _ _ => exact hasSide_of_holds hs
  | advance hs _ _ => exact hasSide_of_holds hs
  | enPassant hs _ _ => exact hasSide_of_holds hs

theorem isTheirs_eq {s : Square} (h : p.board.isEmpty s = false) :
    p.isTheirs s = !p.isOwn s := by
  obtain ⟨piece, hpiece⟩ : ∃ piece, p.board.get s = some piece :=
    Option.isSome_iff_exists.1 (by simpa [Board.isEmpty] using h)
  simp only [isTheirs, isOwn, Board.hasSide, hpiece]
  cases piece.side <;> cases p.turn <;> rfl

theorem isCapture_iff_of_mem_legalMoves (h : m ∈ p.legalMoves) (hfree : p.isOwn m.target = false) :
    p.isCapture m = true ↔ (p.victim? m).isSome := by
  have hsource : p.isOwn m.source = true := (generated_of_mem_legalMoves h).isOwn_source
  have hne : m.source ≠ m.target := by
    intro heq
    rw [heq, hfree] at hsource
    cases hsource
  have hoccupied : p.board.isEmpty m.source = false := by
    obtain ⟨piece, hpiece, -⟩ := hasSide_iff.1 hsource
    simp [Board.isEmpty, hpiece]
  have hsource' : p.isTheirs m.source = false := by rw [isTheirs_eq hoccupied, hsource]; rfl
  cases hpassing : p.isEnPassant m with
  | true => simp [isCapture, victim?, hpassing]
  | false =>
    cases hempty : p.board.isEmpty m.target with
    | true =>
      have hnone : p.board.get m.target = none := by simpa [Board.isEmpty] using hempty
      have htheirs : p.isTheirs m.target = false := by simp [isTheirs, Board.hasSide, hnone]
      simp [isCapture, touches, victim?, hpassing, hsource', htheirs, hnone]
    | false =>
      have htheirs : p.isTheirs m.target = true := by rw [isTheirs_eq hempty, hfree]; rfl
      obtain ⟨piece, hpiece, -⟩ := hasSide_iff.1 htheirs
      simp [isCapture, touches, victim?, hpassing, hne, htheirs, hpiece]

/-- Moves in an order in which the values never rise, and moves of one value stand as they did. -/
structure SortedByValue (p : Position) (ms sorted : List Move) : Prop where
  perm : sorted.Perm ms
  falls : sorted.Pairwise fun m m' => p.captureValue m' ≤ p.captureValue m
  stable : ∀ v, (sorted.filter fun m => p.captureValue m = v) =
    ms.filter fun m => p.captureValue m = v

def Precedes (p : Position) (m m' : Move) : Prop := p.captureValue m' ≤ p.captureValue m

instance (p : Position) : DecidableRel p.Precedes := fun _ _ => Int.decLe _ _

instance (p : Position) : Std.Total p.Precedes := ⟨fun _ _ => Int.le_total _ _⟩

instance (p : Position) : IsTrans Move p.Precedes := ⟨fun _ _ _ h h' => Int.le_trans h' h⟩

theorem foldr_insertByValue (xs : List (Int × Move)) :
    xs.foldr insertByValue [] = xs.insertionSort fun x y => y.1 ≤ x.1 := by
  have hinsert (x : Int × Move) (ys : List (Int × Move)) :
      insertByValue x ys = ys.orderedInsert (fun x y => y.1 ≤ x.1) x := by
    induction ys with
    | nil => rfl
    | cons y ys ih => rw [insertByValue, List.orderedInsert, ih]
  induction xs with
  | nil => rfl
  | cons x xs ih => rw [List.foldr_cons, ih, hinsert, List.insertionSort_cons]

/-- The values that moves are sorted with are those of the moves themselves. -/
theorem order_eq_insertionSort (p : Position) (ms : List Move) :
    p.order ms = ms.insertionSort p.Precedes := by
  have hmap : (ms.insertionSort p.Precedes).map (fun m => (p.captureValue m, m)) =
      (ms.map fun m => (p.captureValue m, m)).insertionSort fun x y => y.1 ≤ x.1 :=
    List.map_insertionSort _ _ _ _ fun _ _ _ _ => Iff.rfl
  rw [order, foldr_insertByValue, ← hmap, List.map_map]
  exact List.map_id _

theorem order_sortedByValue (p : Position) (ms : List Move) :
    p.SortedByValue ms (p.order ms) := by
  rw [order_eq_insertionSort]
  have hperm := List.perm_insertionSort p.Precedes ms
  refine ⟨hperm, List.pairwise_insertionSort p.Precedes ms, fun v => ?_⟩
  -- Moves of one value are in order already, so that the sort keeps them as a sublist.
  have heq : (ms.filter fun m => p.captureValue m = v).Pairwise p.Precedes := by
    refine List.pairwise_of_forall_mem_list fun m hm m' hm' => ?_
    simp only [List.mem_filter, decide_eq_true_eq] at hm hm'
    exact (hm'.2.trans hm.2.symm).le
  have hsub := (List.sublist_insertionSort heq List.filter_sublist).filter
    fun m => decide (p.captureValue m = v)
  simp only [List.filter_filter, Bool.and_self] at hsub
  exact (hsub.eq_of_length (hperm.filter _).length_eq.symm).symm

end Position
end Zeitnot.Chess
