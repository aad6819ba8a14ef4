import Mathlib.Tactic
import Zeitnot.Chess.Game
set_option autoImplicit false

namespace Zeitnot.Chess

def ranksToGo (side : Side) (s : Square) : Nat :=
  match side with
  | .white => 7 - s.rank
  | .black => s.rank

theorem ranksToGo_le (side : Side) (s : Square) : ranksToGo side s ≤ 7 := by
  have hs := s.isLt
  cases side <;> simp only [ranksToGo, Square.rank] <;> omega

def Piece.reserve (p : Piece) (s : Square) : Nat :=
  if p.kind = .pawn then 2 + ranksToGo p.side s else 1

theorem Piece.one_le_reserve (p : Piece) (s : Square) : 1 ≤ p.reserve s := by
  unfold reserve; split <;> omega

theorem Piece.reserve_of_ne_pawn {p : Piece} (h : p.kind ≠ .pawn) (s : Square) :
    p.reserve s = 1 := if_neg h

theorem Piece.reserve_le_ranksToGo (p : Piece) (s : Square) :
    p.reserve s ≤ 2 + ranksToGo p.side s := by
  unfold reserve; split <;> omega

theorem Piece.reserve_le (p : Piece) (s : Square) : p.reserve s ≤ 9 := by
  have hp := p.reserve_le_ranksToGo s
  have hs := ranksToGo_le p.side s
  omega

def cellReserve (s : Square) : Option Piece → Nat
  | some p => p.reserve s
  | none => 0

theorem cellReserve_le (s : Square) (c : Option Piece) : cellReserve s c ≤ 9 := by
  cases c with
  | none => simp [cellReserve]
  | some p => exact p.reserve_le s

namespace Board

def reserve (b : Board) : Nat := ∑ s : Square, cellReserve s (b.get s)

theorem reserve_le (b : Board) : b.reserve ≤ 576 := by
  have h := Finset.sum_le_card_nsmul Finset.univ (fun s : Square => cellReserve s (b.get s)) 9
    fun s _ => cellReserve_le s (b.get s)
  simpa [reserve] using h

theorem reserve_put (b : Board) (s : Square) (c : Option Piece) :
    (b.put s c).reserve + cellReserve s (b.get s) = b.reserve + cellReserve s c := by
  have hs := Finset.mem_univ s
  have hrest : ∑ t ∈ Finset.univ.erase s, cellReserve t ((b.put s c).get t) =
      ∑ t ∈ Finset.univ.erase s, cellReserve t (b.get t) := by
    refine Finset.sum_congr rfl fun t ht => ?_
    rw [get_put, if_neg (Finset.ne_of_mem_erase ht).symm]
  unfold reserve
  rw [← Finset.add_sum_erase _ _ hs, ← Finset.add_sum_erase _ (fun t => cellReserve t (b.get t)) hs,
    hrest, get_put, if_pos rfl]
  omega

theorem reserve_put_none (b : Board) (s : Square) :
    (b.put s none).reserve + cellReserve s (b.get s) = b.reserve := by
  have h := b.reserve_put s none
  simpa only [cellReserve, Nat.add_zero] using h

theorem reserve_put_some_le (b : Board) (s : Square) (p : Piece) :
    (b.put s (some p)).reserve ≤ b.reserve + p.reserve s := by
  have h := b.reserve_put s (some p)
  simp only [cellReserve] at h
  omega

theorem reserve_castled_le (b : Board) (side : Side) (s t : Square) :
    ((b.put s (some ⟨side, .king, false⟩)).put t (some ⟨side, .rook, false⟩)).reserve ≤
      b.reserve + 2 := by
  have hking := b.reserve_put_some_le s ⟨side, .king, false⟩
  have hrook := (b.put s (some ⟨side, .king, false⟩)).reserve_put_some_le t ⟨side, .rook, false⟩
  rw [Piece.reserve_of_ne_pawn (Kind.noConfusion)] at hking hrook
  omega

end Board

namespace Position

/-- A move of an own piece: a pawn comes nearer to its last rank and becomes no king, no other piece
is promoted. -/
structure Advances (p : Position) (m : Move) (piece : Piece) : Prop where
  source : p.board.get m.source = some piece
  side : piece.side = p.turn
  officer : piece.kind ≠ .pawn → m.promotion = none
  pawn : piece.kind = .pawn →
    ranksToGo p.turn m.target < ranksToGo p.turn m.source ∧ m.promotion ≠ some .king

theorem Advances.reserve_of_pawn {p : Position} {m : Move} {piece : Piece}
    (h : p.Advances m piece) (hk : piece.kind = .pawn) :
    (p.boardAfter piece m).reserve < p.board.reserve := by
  obtain ⟨hrank, hpro⟩ := h.pawn hk
  have hsource := p.board.reserve_put_none m.source
  have hpiece : piece.reserve m.source = 2 + ranksToGo p.turn m.source := by
    simp [Piece.reserve, hk, h.side]
  simp only [h.source, cellReserve, hpiece] at hsource
  -- The pawn that is taken in passing only lowers the reserve.
  have hpassed : ∀ s, ((p.board.put m.source none).put s none).reserve ≤
      (p.board.put m.source none).reserve := by
    intro s
    have := (p.board.put m.source none).reserve_put_none s
    omega
  unfold boardAfter
  extract_lets b₀ b placed
  change b₀.reserve + _ = _ at hsource
  have hb : b.reserve ≤ b₀.reserve := by
    simp only [b]
    split
    · split
      · exact hpassed _
      · exact le_refl _
    · exact le_refl _
  have hside : placed.side = p.turn := by
    simp only [placed]; split <;> rfl
  have hking : placed.kind ≠ .king := by
    simp only [placed]
    split
    · rename_i k hm
      exact fun hking => hpro (by rw [hm]; exact congrArg some hking)
    · simp [hk]
  rw [if_neg (fun hc => hking hc.1)]
  have hput := b.reserve_put_some_le m.target placed
  have hplaced := placed.reserve_le_ranksToGo m.target
  rw [hside] at hplaced
  omega

/-- A zeroing move of an officer ends on another piece, and on an own one only if it is a pawn. -/
theorem Advances.target_of_zeroing {p : Position} {m : Move} {piece : Piece}
    (h : p.Advances m piece) (hk : piece.kind ≠ .pawn) (hz : p.isZeroing m = true) :
    ∃ q, (p.board.put m.source none).get m.target = some q ∧
      (q.kind = .pawn ∨ q.side = p.turn.other) := by
  simp only [isZeroing, touches, Bool.and_eq_true, bne_iff_ne, ne_eq, Bool.or_eq_true] at hz
  obtain ⟨hne, hz⟩ := hz
  rw [Board.get_put, if_neg hne]
  rcases hz with (hz | hz) | hz | hz
  · simp [Board.hasKind, h.source, hk] at hz
  · have hother : p.turn ≠ p.turn.other := by cases p.turn <;> decide
    simp [isTheirs, Board.hasSide, h.source, h.side, hother] at hz
  · cases hq : p.board.get m.target with
    | none => simp [Board.hasKind, hq] at hz
    | some q => exact ⟨q, rfl, .inl (by simpa [Board.hasKind, hq] using hz)⟩
  · cases hq : p.board.get m.target with
    | none => simp [isTheirs, Board.hasSide, hq] at hz
    | some q => exact ⟨q, rfl, .inr (by simpa [isTheirs, Board.hasSide, hq] using hz)⟩

theorem Advances.reserve_of_officer {p : Position} {m : Move} {piece : Piece}
    (h : p.Advances m piece) (hk : piece.kind ≠ .pawn) :
    (p.boardAfter piece m).reserve + (if p.isZeroing m then 1 else 0) ≤ p.board.reserve := by
  have hsource := p.board.reserve_put_none m.source
  simp only [h.source, cellReserve, Piece.reserve_of_ne_pawn hk] at hsource
  have hplaced : ({ piece with side := p.turn } : Piece) = piece := by rw [← h.side]
  have htarget := h.target_of_zeroing hk
  unfold boardAfter
  simp only [hk, false_and, if_false, h.officer hk, hplaced]
  generalize p.board.put m.source none = b at *
  split
  · rename_i hc
    -- Castling takes two pieces off the board and puts two on it.
    obtain ⟨-, hown⟩ := hc
    have hrook := b.reserve_put_none m.target
    have hcastled := (b.put m.target none).reserve_castled_le p.turn
    cases hq : b.get m.target with
    | none => simp [Board.hasSide, hq] at hown
    | some q =>
      have hqside : q.side = p.turn := by simpa [Board.hasSide, hq] using hown
      have htaken : 1 + (if p.isZeroing m then 1 else 0) ≤ q.reserve m.target := by
        split
        · rename_i hz
          obtain ⟨q', hq', hpawn | hother⟩ := htarget hz
          · obtain rfl : q = q' := Option.some.inj (hq.symm.trans hq')
            simp [Piece.reserve, hpawn]
          · obtain rfl : q = q' := Option.some.inj (hq.symm.trans hq')
            rw [hqside] at hother
            cases hturn : p.turn <;> simp [hturn, Side.other] at hother
        · exact q.one_le_reserve m.target
      simp only [hq, cellReserve] at hrook
      refine (Nat.add_le_add_right (hcastled _ _) _).trans ?_
      omega
  · have hput := b.reserve_put m.target (some piece)
    simp only [cellReserve, Piece.reserve_of_ne_pawn hk] at hput
    split
    · rename_i hz
      obtain ⟨q, hq, -⟩ := htarget hz
      have hone := q.one_le_reserve m.target
      simp only [hq] at hput
      omega
    · omega

end Position
end Zeitnot.Chess
