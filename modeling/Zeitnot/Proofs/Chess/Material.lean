import Mathlib.Tactic
import Zeitnot.Chess.Material
set_option autoImplicit false

namespace Zeitnot.Chess

theorem Kind.worth_nonneg (k : Kind) : 0 ≤ k.worth := by
  cases k <;> decide

theorem Kind.worth_le (k : Kind) : k.worth ≤ 900 := by
  cases k <;> decide

instance : Fintype Kind := ⟨Kind.all.toFinset, fun k => List.mem_toFinset.2 k.mem_all⟩

theorem Piece.isA_flip (p : Piece) (side : Side) (kind : Kind) :
    p.flip.isA side kind = p.isA side.other kind := by
  cases p with
  | mk own _ _ => cases own <;> cases side <;> rfl

def worthFor (side : Side) : Option Piece → Int
  | some p => if p.side = side then p.kind.worth else 0
  | none => 0

theorem worthFor_nonneg (side : Side) (cell : Option Piece) : 0 ≤ worthFor side cell := by
  cases cell with
  | none => exact le_rfl
  | some p =>
    simp only [worthFor]
    split
    · exact p.kind.worth_nonneg
    · exact le_rfl

theorem worthFor_add_le (cell : Option Piece) :
    worthFor .white cell + worthFor .black cell ≤ 900 := by
  cases cell with
  | none => decide
  | some p =>
    have hworth := p.kind.worth_le
    cases hside : p.side <;> simp [worthFor, hside, hworth]

theorem cellBalance_eq (cell : Option Piece) :
    cellBalance cell = worthFor .white cell - worthFor .black cell := by
  cases cell with
  | none => rfl
  | some p => cases hside : p.side <;> simp [cellBalance, Piece.balance, worthFor, hside]

namespace Board
variable (b : Board) (side : Side)

def count (kind : Kind) : Nat := (Finset.univ.filter fun s => b.holds side kind s).card

def worth : Int := ∑ kind : Kind, kind.worth * b.count side kind

theorem worthFor_get (s : Square) :
    worthFor side (b.get s) = ∑ kind : Kind, if b.holds side kind s then kind.worth else 0 := by
  cases hcell : b.get s with
  | none => simp [worthFor, holds, hcell]
  | some p =>
    by_cases hside : p.side = side
    · simp [worthFor, holds, hcell, Piece.isA, hside]
    · simp [worthFor, holds, hcell, Piece.isA, hside]

theorem worth_eq_sum : b.worth side = ∑ s : Square, worthFor side (b.get s) := by
  calc b.worth side
      = ∑ kind : Kind, ∑ s : Square, if b.holds side kind s then kind.worth else 0 := by
        refine Finset.sum_congr rfl fun kind _ => ?_
        rw [count, Finset.card_filter, Nat.cast_sum, Finset.mul_sum]
        exact Finset.sum_congr rfl fun s _ => by split <;> simp
    _ = ∑ s : Square, ∑ kind : Kind, if b.holds side kind s then kind.worth else 0 :=
        Finset.sum_comm
    _ = ∑ s : Square, worthFor side (b.get s) :=
        Finset.sum_congr rfl fun s _ => (b.worthFor_get side s).symm

theorem balance_eq_sum : b.balance = ∑ s : Square, cellBalance (b.get s) := by
  have hcells : b.cells.toList = List.ofFn b.get := by
    refine List.ext_getElem (by simp) fun n _ _ => ?_
    rw [List.getElem_ofFn]
    rfl
  calc b.balance
      = (b.cells.toList.map cellBalance).sum := by rw [List.sum_eq_foldr, List.foldr_map]; rfl
    _ = ∑ s : Square, cellBalance (b.get s) := by rw [hcells, List.map_ofFn, List.sum_ofFn]; rfl

theorem balance_eq : b.balance = b.worth .white - b.worth .black := by
  rw [balance_eq_sum, worth_eq_sum, worth_eq_sum, ← Finset.sum_sub_distrib]
  exact Finset.sum_congr rfl fun s _ => cellBalance_eq _

theorem count_flip (kind : Kind) : b.flip.count side kind = b.count side.other kind := by
  have hholds (s : Square) : b.flip.holds side kind s = b.holds side.other kind s := by
    unfold holds
    rw [get_flip]
    cases b.get s with
    | none => rfl
    | some p => exact p.isA_flip side kind
  simp only [count, hholds]

theorem worth_flip : b.flip.worth side = b.worth side.other := by
  simp only [worth, count_flip]

theorem worth_nonneg : 0 ≤ b.worth side := by
  rw [worth_eq_sum]
  exact Finset.sum_nonneg fun s _ => worthFor_nonneg side _

/-- No board holds more than 64 queens. -/
theorem worth_add_le : b.worth .white + b.worth .black ≤ 57600 := by
  rw [worth_eq_sum, worth_eq_sum, ← Finset.sum_add_distrib]
  have h := Finset.sum_le_card_nsmul Finset.univ
    (fun s : Square => worthFor .white (b.get s) + worthFor .black (b.get s)) 900
    fun s _ => worthFor_add_le _
  simpa using h

end Board

namespace Position
variable (p : Position)

theorem evaluate_eq : p.evaluate = p.board.worth p.turn - p.board.worth p.turn.other := by
  unfold evaluate
  rw [Board.balance_eq]
  cases p.turn
  · rfl
  · exact neg_sub _ _

theorem abs_evaluate_le : |p.evaluate| ≤ 57600 := by
  have hwhite := p.board.worth_nonneg .white
  have hblack := p.board.worth_nonneg .black
  have hboth := p.board.worth_add_le
  rw [evaluate_eq, abs_le]
  cases p.turn <;> simp only [Side.other] <;> omega

end Position
end Zeitnot.Chess
