import Zeitnot.Chess.Game
set_option autoImplicit false

namespace Zeitnot.Chess

namespace Position

def isCheckmate (p : Position) : Bool := p.inCheck && !p.hasMove

def isStalemate (p : Position) : Bool := !p.inCheck && !p.hasMove

def pieces (p : Position) (side : Side) : List (Square × Kind) :=
  Square.descending.filterMap fun s =>
    match p.board.get s with
    | some piece => if piece.side = side then some (s, piece.kind) else none
    | none => none

/-- Whether a side cannot give mate, however the game goes on. A knight needs a second piece
beside the king or something of the other side in the king's way; bishops need one of the other
colour, a knight or a pawn on the board. -/
def lacksMaterial (p : Position) (side : Side) : Bool :=
  let own := p.pieces side
  let theirs := p.pieces side.other
  let has (k : Kind) (of : List (Square × Kind)) : Bool := of.any (·.2 == k)
  if has .pawn own || has .rook own || has .queen own then false
  else if has .knight own then
    own.length ≤ 2 && theirs.all fun sk => sk.2 == .king || sk.2 == .queen
  else if has .bishop own then
    let bishops := (own ++ theirs).filter (·.2 == .bishop)
    (bishops.all (·.1.isDark) || bishops.all (!·.1.isDark)) &&
      !has .pawn (own ++ theirs) && !has .knight (own ++ theirs)
  else true

def isInsufficient (p : Position) : Bool := p.lacksMaterial .white && p.lacksMaterial .black

def isFiftyMoves (p : Position) : Bool := 100 ≤ p.halfmoves && p.hasMove

end Position

namespace Game

def isDrawn (g : Game) : Bool :=
  g.position.isStalemate || g.position.isInsufficient || g.position.isFiftyMoves || g.isThreefold

end Game
end Zeitnot.Chess
