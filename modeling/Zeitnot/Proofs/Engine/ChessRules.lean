import Zeitnot.Engine
import Zeitnot.Proofs.Chess.GameLength
import Zeitnot.Proofs.Chess.Material
import Zeitnot.Proofs.Search.Values
set_option autoImplicit false

namespace Zeitnot
open Chess Search

namespace Chess

theorem insertByValue_perm (x : Int × Move) (ys : List (Int × Move)) :
    (insertByValue x ys).Perm (x :: ys) := by
  induction ys with
  | nil => exact .refl _
  | cons y ys ih =>
    unfold insertByValue
    split
    · exact .refl _
    · exact (ih.cons y).trans (.swap x y ys)

theorem foldr_insertByValue_perm (xs : List (Int × Move)) :
    (xs.foldr insertByValue []).Perm xs := by
  induction xs with
  | nil => exact .refl _
  | cons x xs ih => exact (insertByValue_perm x _).trans (ih.cons x)

theorem Position.order_perm (p : Position) (ms : List Move) : (p.order ms).Perm ms := by
  have h := (foldr_insertByValue_perm (ms.map fun m => (p.captureValue m, m))).map (·.2)
  simpa [order, Function.comp_def] using h

theorem Position.abs_evaluate_lt_mate (p : Position) {horizon : Int} (h : horizon ≤ 40000) :
    |p.evaluate| < mateValue - horizon := by
  have hmaterial := p.abs_evaluate_le
  unfold mateValue
  omega

end Chess

namespace Engine

@[simp] theorem mem_moves_chessRules {g : Game} {m : Move} :
    m ∈ chessRules.moves g ↔ m ∈ g.legalMoves := (g.position.order_perm g.legalMoves).mem_iff

theorem moves_chessRules_eq_nil {g : Game} : chessRules.moves g = [] ↔ g.legalMoves = [] := by
  simp only [List.eq_nil_iff_forall_not_mem, mem_moves_chessRules]

theorem chessRules_decided : chessRules.Decided := by
  intro g hg
  have hmove : g.position.hasMove = false := by
    simpa [Position.hasMove, Game.legalMoves] using moves_chessRules_eq_nil.1 hg
  cases hc : g.position.inCheck
  · exact .inr (by simp [chessRules, Game.isDrawn, Position.isStalemate, hc, hmove])
  · exact .inl (by simp [chessRules, Position.isCheckmate, hc, hmove])

theorem chessRules_finite : chessRules.Finite fun g => g.position.lifetime where
  decided := chessRules_decided
  evaluate g := by
    have h := abs_le.1 g.position.abs_evaluate_le
    simp only [Moderate, mateValue, chessRules]
    omega
  play_lt _ hd hm := Game.lifetime_push_lt hd (mem_moves_chessRules.1 hm)

theorem moderate_moveValue (g : Game) (depth : Nat) (m : Move) :
    Moderate (moveValue chessRules g depth m) := by
  refine moveValue_moderate chessRules_finite (fun g => ?_) depth m
  have h := g.position.lifetime_le
  unfold mateValue; omega

end Engine
end Zeitnot
