import Zeitnot.Chess.Legal
set_option autoImplicit false

namespace Zeitnot.Chess

namespace Position

def asKingStep (p : Position) (m : Move) : Move :=
  if m.promotion.isSome then m else { m with target := kingStep p.board m.source m.target }

def asRookStep (p : Position) (m : Move) : Move :=
  let target := rookStep p.board m.source m.target
  if target = m.target then m else ⟨m.source, target, none⟩

def untouched (side : Side) (m : Move) (w : Wings) : Wings :=
  let touched (s : Square) : Bool := s == m.source || s == m.target
  ⟨w.a && !touched (aRookHome side), w.h && !touched (hRookHome side)⟩

/-- Rights after a piece has moved: a king's move ends those of its side, its capture on the home
rank too. -/
def rightsAfter (p : Position) (piece : Piece) (m : Move) : PerSide Wings :=
  let rights : PerSide Wings :=
    ⟨untouched .white m p.rights.white, untouched .black m p.rights.black⟩
  if piece.kind = .king ∧ piece.promoted = false then rights.set p.turn Wings.none
  else
    match p.board.get m.target with
    | some taken =>
      if taken.kind = .king ∧ taken.promoted = false ∧
          m.target.rank = Board.backRank p.turn.other then
        rights.set p.turn.other Wings.none
      else rights
    | none => rights

def passedOver? (m : Move) : Option Square :=
  if m.target.val = m.source.val + 16 ∧ m.source.rank = 1 then m.source.offset? 8
  else if m.source.val = m.target.val + 16 ∧ m.source.rank = 6 then m.source.offset? (-8)
  else none

def boardAfter (p : Position) (piece : Piece) (m : Move) : Board :=
  let b := p.board.put m.source none
  let b :=
    if piece.kind = .pawn ∧ (passedOver? m).isNone ∧ p.isEnPassant m then
      match p.passedPawn? m.target with
      | some s => b.put s none
      | none => b
    else b
  let placed : Piece :=
    match m.promotion with
    | some kind => ⟨p.turn, kind, true⟩
    | none => { piece with side := p.turn }
  if placed.kind = .king ∧ b.hasSide p.turn m.target then
    let b := b.put m.target none
    let (kingFile, rookFile) := if m.target.file < m.source.file then (2, 3) else (6, 5)
    (b.put (onBackRank p.turn kingFile) (some ⟨p.turn, .king, false⟩)).put
      (onBackRank p.turn rookFile) (some ⟨p.turn, .rook, false⟩)
  else b.put m.target (some placed)

/-- The position after a move. A null move only passes the turn. -/
def play (p : Position) (m : Move) : Position :=
  let m := p.asRookStep m
  let fullmove := match p.turn with
    | .white => p.fullmove
    | .black => p.fullmove + 1
  let passed : Position :=
    { p with turn := p.turn.other, enPassant := none, halfmoves := p.halfmoves + 1, fullmove }
  if m.isNull then passed
  else
    match p.board.get m.source with
    | none => passed
    | some piece =>
      { passed with
        board := p.boardAfter piece m
        rights := p.rightsAfter piece m
        enPassant := if piece.kind = .pawn then passedOver? m else none
        halfmoves := if p.isZeroing m then 0 else p.halfmoves + 1 }

def reducesRights (p : Position) (m : Move) : Bool :=
  let reduces (side : Side) : Bool :=
    !(p.castlingRooks side).isEmpty &&
      (touches m (p.castlingRooks side).contains || touches m (p.board.holdsTrueKing side))
  reduces .white || reduces .black

def isIrreversible (p : Position) (m : Move) : Bool :=
  p.isZeroing m || p.reducesRights m || p.hasEnPassant

/-- What stands on a square, promoted or not. -/
def placement (b : Board) : Vector (Option (Side × Kind)) 64 :=
  b.cells.map (Option.map fun piece => (piece.side, piece.kind))

def takeable? (p : Position) : Option Square := if p.hasEnPassant then p.enPassant else none

def repeats (p q : Position) : Bool :=
  p.turn == q.turn && p.rights == q.rights && placement p.board == placement q.board &&
    p.takeable? == q.takeable?

end Position

structure Game where
  position : Position
  /-- The positions before the moves, and the moves, the last one first. -/
  past : List (Position × Move)
  deriving DecidableEq, Repr

namespace Game

def start (p : Position) : Game := ⟨p, []⟩

def push (g : Game) (m : Move) : Game :=
  let step := g.position.asKingStep (g.position.asRookStep m)
  ⟨g.position.play m, (g.position, step) :: g.past⟩

def pop (g : Game) : Game :=
  match g.past with
  | [] => g
  | (p, _) :: past => ⟨p, past⟩

@[simp] theorem pop_push (g : Game) (m : Move) : (g.push m).pop = g := rfl

@[simp] theorem position_push (g : Game) (m : Move) :
    (g.push m).position = g.position.play m := rfl

def legalMoves (g : Game) : List Move := g.position.legalMoves

/-- Whether a position has stood `count` more times, going back no further than an irreversible
move. -/
def stoodBefore (p : Position) : (count : Nat) → List (Position × Move) → Bool
  | 0, _ => true
  | _ + 1, [] => false
  | count + 1, (q, m) :: past =>
    if past.length < count || q.isIrreversible m then false
    else stoodBefore p (if p.repeats q then count else count + 1) past

def isThreefold (g : Game) : Bool := stoodBefore g.position 2 g.past

end Game
end Zeitnot.Chess
