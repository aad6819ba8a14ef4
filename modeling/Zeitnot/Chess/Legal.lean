import Zeitnot.Chess.Position
/-!
Legal moves: candidates in a fixed order, of which those are kept that leave no king attacked. In
check the candidates are the king's moves, captures of a single checker and moves in between.
-/
set_option autoImplicit false

namespace Zeitnot.Chess
namespace Position

structure Scope where
  source : Square → Bool
  target : Square → Bool

def Scope.all : Scope := ⟨fun _ => true, fun _ => true⟩

def Scope.of (m : Move) : Scope := ⟨(· == m.source), (· == m.target)⟩

def Scope.butKings (p : Position) (scope : Scope) (target : Square → Bool) : Scope :=
  ⟨fun s => scope.source s && !p.board.hasKind .king s, fun s => scope.target s && target s⟩

def pieceMoves (p : Position) (scope : Scope) : List Move :=
  (p.ownSquares.filter fun s => scope.source s && !p.board.hasKind .pawn s).flatMap fun s =>
    (Square.sortDown ((p.board.attacks s).filter fun t => !p.isOwn t && scope.target t)).map
      fun t => ⟨s, t, none⟩

def canCastle (p : Position) (c : Castling) : Bool :=
  let others (s : Square) : Bool := p.board.occupied s && s != c.king && s != c.rook
  let kingPath := Square.between c.king c.kingTarget
  let rookPath := Square.between c.rook c.rookTarget
  let attacked (occupied : Square → Bool) (s : Square) : Bool :=
    !(p.board.attackersWith occupied p.turn.other s).isEmpty
  !(kingPath ++ rookPath ++ [c.kingTarget, c.rookTarget]).any others &&
    !(c.king :: kingPath).any (attacked fun s => p.board.occupied s && s != c.king) &&
    !attacked (fun s => others s || s == c.rookTarget) c.kingTarget

def castlingMoves (p : Position) (scope : Scope) : List Move :=
  let home (s : Square) : Bool := s.rank == Board.backRank p.turn
  let kings := Square.descending.filter fun s =>
    home s && scope.source s && p.board.holdsTrueKing p.turn s
  match kings.getLast? with
  | none => []
  | some king =>
    ((p.castlingRooks p.turn).filter scope.target).filterMap fun rook =>
      if p.canCastle (.of p.turn king rook) then some ⟨king, kingStep p.board king rook, none⟩
      else none

def isLastRank (s : Square) : Bool := s.rank == 0 || s.rank == 7

/-- A pawn's move, as all its promotions if it ends on the first or the last rank. -/
def pawnMoves (s t : Square) : List Move :=
  if isLastRank t then [Kind.queen, .rook, .bishop, .knight].map fun k => ⟨s, t, some k⟩
  else [⟨s, t, none⟩]

def ownPawns (p : Position) (scope : Scope) : List Square :=
  p.ownSquares.filter fun s => scope.source s && p.board.hasKind .pawn s

def pawnCaptures (p : Position) (scope : Scope) : List Move :=
  (p.ownPawns scope).flatMap fun s =>
    (Square.sortDown ((Board.pawnTargets p.turn s).filter fun t =>
      p.isTheirs t && scope.target t)).flatMap (pawnMoves s)

def advance? (p : Position) (s : Square) : Option Square :=
  (s.offset? (8 * Board.forward p.turn)).filter p.board.isEmpty

def singleAdvances (p : Position) (scope : Scope) : List Move :=
  (p.ownPawns scope).flatMap fun s =>
    match (p.advance? s).filter scope.target with
    | some t => pawnMoves s t
    | none => []

def endsDouble (side : Side) (t : Square) : Bool :=
  match side with
  | .white => t.rank == 2 || t.rank == 3
  | .black => t.rank == 4 || t.rank == 5

def doubleAdvances (p : Position) (scope : Scope) : List Move :=
  (p.ownPawns scope).filterMap fun s =>
    match (p.advance? s).bind p.advance? with
    | some t => if endsDouble p.turn t && scope.target t then some ⟨s, t, none⟩ else none
    | none => none

def passingRank : Side → Nat
  | .white => 4
  | .black => 3

/-- Captures of a pawn that has just passed; none on a1. -/
def enPassantMoves (p : Position) (scope : Scope) : List Move :=
  match p.enPassant with
  | none => []
  | some t =>
    if t = Square.a1 ∨ scope.target t = false ∨ p.board.isEmpty t = false then []
    else
      (p.ownPawns scope).filterMap fun s =>
        if s.rank == passingRank p.turn && (Board.pawnTargets p.turn.other t).contains s then
          some ⟨s, t, none⟩
        else none

/-- Moves that follow the rules of their piece, whether or not they expose the king. -/
def candidates (p : Position) (scope : Scope) : List Move :=
  p.pieceMoves scope ++ p.castlingMoves scope ++ p.pawnCaptures scope ++
    p.singleAdvances scope ++ p.doubleAdvances scope ++ p.enPassantMoves scope

def passedPawn? (p : Position) (t : Square) : Option Square :=
  t.offset? (-8 * Board.forward p.turn)

def evasions (p : Position) (king : Square) (checkers : List Square) (scope : Scope) : List Move :=
  let slides (s : Square) : Bool :=
    match p.board.get s with
    | some piece => piece.kind.slidesStraight || piece.kind.slidesDiagonally
    | none => false
  let swept (t : Square) : Bool :=
    (checkers.filter slides).any fun c => t != c && Square.onLine king c t
  let kingMoves :=
    if scope.source king then
      (Square.sortDown ((Square.kingTargets.get king).filter fun t =>
        !p.isOwn t && !swept t && scope.target t)).map fun t => (⟨king, t, none⟩ : Move)
    else []
  match checkers with
  | [checker] =>
    let answer (t : Square) : Bool := t == checker || (Square.between king checker).contains t
    let passing :=
      match p.enPassant with
      | some t =>
        if t ≠ Square.a1 ∧ answer t = false ∧ p.passedPawn? t = some checker then
          p.enPassantMoves scope
        else []
      | none => []
    kingMoves ++ p.candidates (scope.butKings p answer) ++ passing
  | _ => kingMoves

/-- Whether an attack along a line opens when a pawn and the pawn it takes in passing both leave. -/
def passingSkewer (p : Position) (king capturer : Square) : Bool :=
  match p.enPassant with
  | none => false
  | some t =>
    let occupied (s : Square) : Bool :=
      s == t || (p.board.occupied s && s != capturer && some s != p.passedPawn? t)
    let opens (slides : Kind → Bool) (rays : List (List Square)) : Bool :=
      !(p.board.slidersTo occupied p.turn.other slides rays).isEmpty
    opens Kind.slidesStraight (Square.alongRanks.map (Square.ray king)) ||
      opens Kind.slidesDiagonally (Square.diagonalRays.get king)

def keepsPin (p : Position) (source target : Square) : Bool :=
  match p.board.king? p.turn with
  | none => true
  | some king =>
    let lines : List (List Square.Direction × (Kind → Bool)) :=
      [(Square.alongFiles, Kind.slidesStraight), (Square.alongRanks, Kind.slidesStraight),
        (Square.diagonal, Kind.slidesDiagonally)]
    let line := lines.find? fun l => (l.1.map (Square.ray king)).any (·.contains source)
    match line with
    | none => true
    | some (ds, slides) =>
      let snipers := Square.sortDown ((ds.flatMap (Square.ray king)).filter fun s =>
        match p.board.get s with
        | some piece => piece.side == p.turn.other && slides piece.kind
        | none => false)
      let pinning := snipers.find? fun s =>
        (Square.between s king).filter (fun t => p.board.occupied t || t == source) == [source]
      match pinning with
      | some s => Square.onLine king s target
      | none => true

/-- Whether a candidate leaves the king on a square that is not attacked. `shields` are the own
pieces that stand alone between the king and a slider. -/
def isSafe (p : Position) (king : Square) (shields : List Square) (m : Move) : Bool :=
  if king = m.source then
    p.isCastling m || !p.board.isAttacked p.turn.other m.target
  else if p.isEnPassant m then
    p.keepsPin m.source m.target && !p.passingSkewer king m.source
  else !shields.contains m.source || Square.onLine m.source m.target king

def legalIn (p : Position) (scope : Scope) : List Move :=
  match p.board.anyKing? p.turn with
  | none => p.candidates scope
  | some king =>
    let checkers := p.board.attackers p.turn.other king
    let moves := if checkers.isEmpty then p.candidates scope else p.evasions king checkers scope
    moves.filter (p.isSafe king (p.board.shields p.turn king))

def legalMoves (p : Position) : List Move := p.legalIn .all

def hasMove (p : Position) : Bool := !p.legalMoves.isEmpty

def isCandidate (p : Position) (m : Move) : Bool :=
  match p.board.get m.source with
  | none => false
  | some piece =>
    let promotes := match m.promotion with
      | none => true
      | some _ => piece.kind == .pawn && m.target.rank == Board.backRank p.turn.other
    if m.isNull || piece.side != p.turn || !promotes then false
    else
      let castles := piece.kind == .king &&
        (p.castlingMoves .all).contains ⟨m.source, kingStep p.board m.source m.target, none⟩
      if castles then true
      else if p.isOwn m.target then false
      else if piece.kind == .pawn then (p.candidates (.of m)).contains m
      else (p.board.attacks m.source).contains m.target

def exposesKing (p : Position) (m : Move) : Bool :=
  match p.board.king? p.turn with
  | none => false
  | some king =>
    let checkers := p.board.attackers p.turn.other king
    if !checkers.isEmpty && !(p.evasions king checkers (.of m)).contains m then true
    else !p.isSafe king (p.board.shields p.turn king) m

def isLegal (p : Position) (m : Move) : Bool := p.isCandidate m && !p.exposesKing m

def hasEnPassant (p : Position) : Bool :=
  (p.enPassantMoves .all).any fun m => !p.exposesKing m

end Position
end Zeitnot.Chess
