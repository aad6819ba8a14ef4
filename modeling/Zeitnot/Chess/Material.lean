import Zeitnot.Chess.Legal
set_option autoImplicit false

namespace Zeitnot.Chess

def Piece.balance (p : Piece) : Int :=
  match p.side with
  | .white => p.kind.worth
  | .black => -p.kind.worth

def cellBalance : Option Piece → Int
  | some p => p.balance
  | none => 0

def Board.balance (b : Board) : Int :=
  b.cells.toList.foldr (fun cell total => cellBalance cell + total) 0

def Position.evaluate (p : Position) : Int :=
  match p.turn with
  | .white => p.board.balance
  | .black => -p.board.balance

/-- The worth of what a move captures, and less than that of any capture if it captures
nothing. -/
def Position.captureValue (p : Position) (m : Move) : Int :=
  if p.isEnPassant m then Kind.pawn.worth
  else
    match p.board.get m.target with
    | some victim => victim.kind.worth
    | none => -1

def insertByValue (x : Int × Move) : List (Int × Move) → List (Int × Move)
  | [] => [x]
  | y :: ys => if y.1 ≤ x.1 then x :: y :: ys else y :: insertByValue x ys

/-- Moves with the most valuable captures first; moves of equal value keep their order. -/
def Position.order (p : Position) (ms : List Move) : List Move :=
  ((ms.map fun m => (p.captureValue m, m)).foldr insertByValue []).map (·.2)

end Zeitnot.Chess
