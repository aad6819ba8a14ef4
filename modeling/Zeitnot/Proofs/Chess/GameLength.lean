import Zeitnot.Chess.Ending
import Zeitnot.Proofs.Chess.Generation
import Zeitnot.Proofs.Chess.Reserve
/-!
Every game of chess ends. The reserve of the board falls with every capture and every pawn move, and
between two of them the draw by fifty moves leaves room for a hundred moves only.
-/
set_option autoImplicit false

namespace Zeitnot.Chess

theorem ranksToGo_lt_of_rank {s t : Square} {side : Side}
    (h : (t.rank : Int) = s.rank + Board.forward side) : ranksToGo side t < ranksToGo side s := by
  have hs := s.isLt
  have ht := t.isLt
  cases side <;> simp only [Board.forward, ranksToGo, Square.rank] at * <;> omega

theorem ranksToGo_lt_of_val {s t : Square} {side : Side}
    (h : (t.val : Int) = s.val + 8 * Board.forward side ∨
      (t.val : Int) = s.val + 16 * Board.forward side) : ranksToGo side t < ranksToGo side s := by
  have hs := s.isLt
  have ht := t.isLt
  cases side <;> simp only [Board.forward, ranksToGo, Square.rank] at * <;> omega

theorem ranksToGo_lt_of_passing {s t : Square} {side : Side}
    (h : s ∈ Board.pawnTargets side.other t) : ranksToGo side t < ranksToGo side s := by
  have hrank := rank_of_mem_pawnTargets h
  apply ranksToGo_lt_of_rank
  cases side <;> simp only [Side.other, Board.forward] at * <;> omega

namespace Position
variable {p : Position} {m : Move} {piece : Piece}

theorem advances_pawn {s t : Square} (hs : p.board.holds p.turn .pawn s = true)
    (ht : ranksToGo p.turn t < ranksToGo p.turn s) {pro : Option Kind} (hp : pro ≠ some .king) :
    ∃ piece, p.Advances ⟨s, t, pro⟩ piece := by
  obtain ⟨q, hq, hside, hkind⟩ := holds_iff.1 hs
  exact ⟨q, hq, hside, fun h => absurd hkind h, fun _ => ⟨ht, hp⟩⟩

theorem Generated.advances (h : p.Generated m) : ∃ piece, p.Advances m piece := by
  cases h with
  | officer hs hk _ =>
    obtain ⟨q, hq, hside⟩ := hasSide_iff.1 hs
    have hkind : q.kind ≠ .pawn := by simpa [Board.hasKind, hq] using hk
    exact ⟨q, hq, hside, fun _ => rfl, fun h => absurd h hkind⟩
  | castling hk _ =>
    obtain ⟨q, hq, hside, hkind⟩ := holds_iff.1 hk
    exact ⟨q, hq, hside, fun _ => rfl, fun h => by simp [hkind] at h⟩
  | capture hs ht _ hpro =>
    exact advances_pawn hs (ranksToGo_lt_of_rank (rank_of_mem_pawnTargets ht)) hpro
  | advance hs ht hpro => exact advances_pawn hs (ranksToGo_lt_of_val ht) hpro
  | enPassant hs _ ht => exact advances_pawn hs (ranksToGo_lt_of_passing ht) (by simp)

theorem Advances.asRookStep (h : p.Advances m piece) : p.Advances (p.asRookStep m) piece := by
  unfold Position.asRookStep
  extract_lets target
  split
  · exact h
  · rename_i hne
    refine ⟨h.source, h.side, fun _ => rfl, fun hk => absurd ?_ hne⟩
    have hno : p.board.hasKind .king m.source = false := by simp [Board.hasKind, h.source, hk]
    exact rookStep_of_no_king hno m.target

/-- A bound on the moves that the rest of a game can have. -/
def lifetime (p : Position) : Nat := 101 * p.board.reserve + (100 - p.halfmoves)

theorem lifetime_le (p : Position) : p.lifetime ≤ 58276 := by
  have h := p.board.reserve_le
  unfold lifetime; omega

theorem lifetime_play_lt (h : p.Advances m piece) (hp : p.halfmoves < 100) :
    (p.play m).lifetime < p.lifetime := by
  have hr := h.asRookStep
  simp only [play, lifetime]
  split
  · simp only; omega
  · simp only [hr.source]
    by_cases hk : piece.kind = .pawn
    · have hlt := hr.reserve_of_pawn hk
      split <;> omega
    · have hle := hr.reserve_of_officer hk
      split <;> rename_i hz <;> simp only [hz] at hle <;> simp at hle <;> omega

end Position

theorem Game.lifetime_push_lt {g : Game} {m : Move} (hd : g.isDrawn = false)
    (hm : m ∈ g.legalMoves) : (g.push m).position.lifetime < g.position.lifetime := by
  obtain ⟨piece, h⟩ := (Position.generated_of_mem_legalMoves hm).advances
  refine Position.lifetime_play_lt h ?_
  have hmove : g.position.hasMove = true := by
    simpa [Position.hasMove, Game.legalMoves] using List.ne_nil_of_mem hm
  have hfifty : g.position.isFiftyMoves = false := by
    simp only [Game.isDrawn, Bool.or_eq_false_iff] at hd
    exact hd.1.2
  simpa [Position.isFiftyMoves, hmove] using hfifty

end Zeitnot.Chess
