import Zeitnot.Chess.Piece
import Zeitnot.Chess.Square
set_option autoImplicit false

namespace Zeitnot.Chess

structure Board where
  cells : Vector (Option Piece) 64
  deriving DecidableEq, Repr

namespace Board

def empty : Board := ⟨Vector.replicate 64 none⟩

def get (b : Board) (s : Square) : Option Piece := b.cells.get s

def put (b : Board) (s : Square) (p : Option Piece) : Board := ⟨b.cells.set s.val p s.isLt⟩

@[simp] theorem get_put (b : Board) (s t : Square) (p : Option Piece) :
    (b.put s p).get t = if s = t then p else b.get t := by
  simp [get, put, Vector.get, Array.getElem_set, Fin.ext_iff]; rfl

def isEmpty (b : Board) (s : Square) : Bool := (b.get s).isNone

def hasSide (b : Board) (side : Side) (s : Square) : Bool :=
  match b.get s with
  | some p => p.side == side
  | none => false

def hasKind (b : Board) (kind : Kind) (s : Square) : Bool :=
  match b.get s with
  | some p => p.kind == kind
  | none => false

def holds (b : Board) (side : Side) (kind : Kind) (s : Square) : Bool :=
  match b.get s with
  | some p => p.isA side kind
  | none => false

/-- Whether a king of the side stands there that is no promoted piece. -/
def holdsTrueKing (b : Board) (side : Side) (s : Square) : Bool :=
  match b.get s with
  | some p => p.isA side .king && !p.promoted
  | none => false

/-- Squares of the pieces of a side, from the highest to the lowest. -/
def squaresOf (b : Board) (side : Side) : List Square :=
  Square.descending.filter (b.hasSide side)

/-- The highest square with a king of a side, be it a promoted one. -/
def anyKing? (b : Board) (side : Side) : Option Square :=
  Square.descending.find? (b.holds side .king)

def king? (b : Board) (side : Side) : Option Square :=
  Square.descending.find? (b.holdsTrueKing side)

def forward : Side → Int
  | .white => 1
  | .black => -1

def backRank : Side → Nat
  | .white => 0
  | .black => 7

def pawnTargets (side : Side) (s : Square) : List Square :=
  [s.step? (-1) (forward side), s.step? 1 (forward side)].filterMap id

/-- Squares of a ray up to the first that is occupied, which is included. -/
def visible (occupied : Square → Bool) : List Square → List Square
  | [] => []
  | s :: rest => if occupied s then [s] else s :: visible occupied rest

def attacks (b : Board) (s : Square) : List Square :=
  match b.get s with
  | none => []
  | some p =>
    let see (ray : List Square) : List Square := visible (fun t => !b.isEmpty t) ray
    match p.kind with
    | .pawn => pawnTargets p.side s
    | .knight => Square.knightTargets.get s
    | .king => Square.kingTargets.get s
    | .rook => (Square.straightRays.get s).flatMap see
    | .bishop => (Square.diagonalRays.get s).flatMap see
    | .queen => (Square.straightRays.get s).flatMap see ++ (Square.diagonalRays.get s).flatMap see

/-- Pieces of a side on the rays of a square that slide along them as far as the square, with
`occupied` saying which squares stop a ray. -/
def slidersTo (b : Board) (occupied : Square → Bool) (side : Side) (slides : Kind → Bool)
    (rays : List (List Square)) : List Square :=
  rays.flatMap fun ray =>
    (visible occupied ray).filter fun t =>
      match b.get t with
      | some p => p.side == side && slides p.kind
      | none => false

def attackersWith (b : Board) (occupied : Square → Bool) (side : Side) (s : Square) :
    List Square :=
  slidersTo b occupied side Kind.slidesStraight (Square.straightRays.get s) ++
    slidersTo b occupied side Kind.slidesDiagonally (Square.diagonalRays.get s) ++
    (Square.knightTargets.get s).filter (b.holds side .knight) ++
    (Square.kingTargets.get s).filter (b.holds side .king) ++
    (pawnTargets side.other s).filter (b.holds side .pawn)

def occupied (b : Board) (s : Square) : Bool := !b.isEmpty s

def attackers (b : Board) (side : Side) (s : Square) : List Square :=
  b.attackersWith b.occupied side s

def isAttacked (b : Board) (side : Side) (s : Square) : Bool := !(b.attackers side s).isEmpty

/-- Pieces that the other side's sliders would attack a square through, if they were gone: alone
between the square and the slider. -/
def shields (b : Board) (us : Side) (s : Square) : List Square :=
  let along (slides : Kind → Bool) (ray : List Square) : Option Square :=
    match ray.filter b.occupied with
    | shield :: far :: _ =>
      match b.get far with
      | some p =>
        if p.side == us.other && slides p.kind && b.hasSide us shield then some shield else none
      | none => none
    | _ => none
  (Square.straightRays.get s).filterMap (along Kind.slidesStraight) ++
    (Square.diagonalRays.get s).filterMap (along Kind.slidesDiagonally)

def flip (b : Board) : Board := ⟨b.cells.map (Option.map Piece.flip)⟩

@[simp] theorem get_flip (b : Board) (s : Square) : b.flip.get s = (b.get s).map Piece.flip := by
  simp [get, flip, Vector.get]; rfl

end Board
end Zeitnot.Chess
