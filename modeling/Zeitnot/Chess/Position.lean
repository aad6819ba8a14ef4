import Zeitnot.Chess.Board
import Zeitnot.Chess.Move
set_option autoImplicit false

namespace Zeitnot.Chess

structure Wings where
  a : Bool
  h : Bool
  deriving DecidableEq, Repr

def Wings.none : Wings := ⟨false, false⟩

structure Position where
  board : Board
  turn : Side
  /-- Rights whose king and rook are in place. -/
  rights : PerSide Wings
  /-- The square that a pawn has just passed over. -/
  enPassant : Option Square
  /-- Moves of both sides since the last capture or pawn move. -/
  halfmoves : Nat
  fullmove : Nat
  deriving DecidableEq, Repr

namespace Position

def ply (p : Position) : Int :=
  2 * ((p.fullmove : Int) - 1) + match p.turn with
    | .white => 0
    | .black => 1

def kingHome : Side → Square
  | .white => Square.e1
  | .black => Square.e8

def aRookHome : Side → Square
  | .white => Square.a1
  | .black => Square.a8

def hRookHome : Side → Square
  | .white => Square.h1
  | .black => Square.h8

def inPlace (b : Board) (side : Side) (w : Wings) : Wings :=
  if b.holdsTrueKing side (kingHome side) then
    ⟨w.a && b.holds side .rook (aRookHome side), w.h && b.holds side .rook (hRookHome side)⟩
  else Wings.none

def castlingRooks (p : Position) (side : Side) : List Square :=
  (if (p.rights.get side).h then [hRookHome side] else []) ++
    (if (p.rights.get side).a then [aRookHome side] else [])

def onBackRank (side : Side) (file : Nat) : Square :=
  Square.ofNat (Board.backRank side * 8 + file)

structure Castling where
  king : Square
  rook : Square
  kingTarget : Square
  rookTarget : Square
  deriving DecidableEq, Repr

def Castling.of (side : Side) (king rook : Square) : Castling :=
  if rook < king then ⟨king, rook, onBackRank side 2, onBackRank side 3⟩
  else ⟨king, rook, onBackRank side 6, onBackRank side 5⟩

/-- A king's move by two files in place of a move onto its own rook. -/
def kingStep (b : Board) (source target : Square) : Square :=
  if source = Square.e1 ∧ b.hasKind .king Square.e1 then
    if target = Square.h1 then Square.g1 else if target = Square.a1 then Square.c1 else target
  else if source = Square.e8 ∧ b.hasKind .king Square.e8 then
    if target = Square.h8 then Square.g8 else if target = Square.a8 then Square.c8 else target
  else target

/-- A king's move onto its own rook in place of a move by two files. -/
def rookStep (b : Board) (source target : Square) : Square :=
  let onto (two rook : Square) : Square := if b.hasKind .rook two then two else rook
  if source = Square.e1 ∧ b.hasKind .king Square.e1 then
    if target = Square.g1 then onto Square.g1 Square.h1
    else if target = Square.c1 then onto Square.c1 Square.a1
    else target
  else if source = Square.e8 ∧ b.hasKind .king Square.e8 then
    if target = Square.g8 then onto Square.g8 Square.h8
    else if target = Square.c8 then onto Square.c8 Square.a8
    else target
  else target

def ownSquares (p : Position) : List Square := p.board.squaresOf p.turn

def isOwn (p : Position) (s : Square) : Bool := p.board.hasSide p.turn s

def isTheirs (p : Position) (s : Square) : Bool := p.board.hasSide p.turn.other s

def checkers (p : Position) : List Square :=
  match p.board.king? p.turn with
  | some king => p.board.attackers p.turn.other king
  | none => []

def inCheck (p : Position) : Bool := !p.checkers.isEmpty

def isEnPassant (p : Position) (m : Move) : Bool :=
  p.enPassant == some m.target && p.board.hasKind .pawn m.source &&
    (((m.target.val : Int) - m.source.val).natAbs == 7 ||
      ((m.target.val : Int) - m.source.val).natAbs == 9) && p.board.isEmpty m.target

/-- Whether a move, null or not, touches a square of some kind: its source or its target, but
neither if they are the same. -/
def touches (m : Move) (holds : Square → Bool) : Bool :=
  m.source != m.target && (holds m.source || holds m.target)

def isCapture (p : Position) (m : Move) : Bool := touches m p.isTheirs || p.isEnPassant m

def isZeroing (p : Position) (m : Move) : Bool :=
  touches m fun s => p.board.hasKind .pawn s || p.isTheirs s

def isCastling (p : Position) (m : Move) : Bool :=
  p.board.hasKind .king m.source &&
    (1 < ((m.source.file : Int) - m.target.file).natAbs || p.board.holds p.turn .rook m.target)

end Position
end Zeitnot.Chess
