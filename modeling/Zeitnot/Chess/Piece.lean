import Zeitnot.Side
set_option autoImplicit false

namespace Zeitnot.Chess

inductive Kind
  | pawn
  | knight
  | bishop
  | rook
  | queen
  | king
  deriving DecidableEq, Repr

namespace Kind

def all : List Kind := [pawn, knight, bishop, rook, queen, king]

theorem mem_all (k : Kind) : k ∈ all := by cases k <;> decide

def letter : Kind → Char
  | pawn => 'p'
  | knight => 'n'
  | bishop => 'b'
  | rook => 'r'
  | queen => 'q'
  | king => 'k'

def ofLetter? (c : Char) : Option Kind := all.find? fun k => k.letter == c

def slidesStraight (k : Kind) : Bool := k == rook || k == queen

def slidesDiagonally (k : Kind) : Bool := k == bishop || k == queen

/-- Worth in hundredths of a pawn. -/
def worth : Kind → Int
  | pawn => 100
  | knight => 320
  | bishop => 330
  | rook => 500
  | queen => 900
  | king => 0

end Kind

/-- A piece on the board. A promoted king does not castle and is no king to be mated. -/
structure Piece where
  side : Side
  kind : Kind
  promoted : Bool
  deriving DecidableEq, Repr

namespace Piece

def isA (p : Piece) (side : Side) (kind : Kind) : Bool := p.side == side && p.kind == kind

def letter (p : Piece) : Char :=
  match p.side with
  | .white => p.kind.letter.toUpper
  | .black => p.kind.letter

/-- The sign of the kelvin is a capital letter whose small letter is `k`. -/
def kelvin : Char := Char.ofNat 0x212a

def smallLetter (c : Char) : Char := if c = kelvin then 'k' else c.toLower

def ofLetter? (c : Char) : Option Piece :=
  (Kind.ofLetter? (smallLetter c)).map fun k =>
    ⟨if c.isUpper || c = kelvin then .white else .black, k, false⟩

def flip (p : Piece) : Piece := { p with side := p.side.other }

end Piece
end Zeitnot.Chess
