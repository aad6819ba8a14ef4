import Zeitnot.Chess.Game
import Zeitnot.Text.Numeral
set_option autoImplicit false

namespace Zeitnot.Chess
open Text

namespace Fen

/-- What is wrong with a text; faults of the board show its field only. -/
inductive Fault
  | empty
  | turn (fen : String)
  | castling (fen : String)
  | enPassant (fen : String)
  | halfmoves (fen : String)
  | halfmovesNegative (fen : String)
  | fullmove (fen : String)
  | fullmoveNegative (fen : String)
  | excess (fen : String)
  | rows (board : String)
  | twoDigits (board : String)
  | promotionMark (board : String)
  | character (board : String)
  | columns (board : String)
  deriving DecidableEq, Repr

def Fault.message : Fault → String
  | .empty => "empty fen"
  | .turn t => "expected 'w' or 'b' for turn part of fen: " ++ quoted t
  | .castling t => "invalid castling part in fen: " ++ quoted t
  | .enPassant t => "invalid en passant part in fen: " ++ quoted t
  | .halfmoves t => "invalid half-move clock in fen: " ++ quoted t
  | .halfmovesNegative t => "half-move clock cannot be negative: " ++ quoted t
  | .fullmove t => "invalid fullmove number in fen: " ++ quoted t
  | .fullmoveNegative t => "fullmove number cannot be negative: " ++ quoted t
  | .excess t => "fen string has more parts than expected: " ++ quoted t
  | .rows t => "expected 8 rows in position part of fen: " ++ quoted t
  | .twoDigits t => "two subsequent digits in position part of fen: " ++ quoted t
  | .promotionMark t => "'~' not after piece in position part of fen: " ++ quoted t
  | .character t => "invalid character in position part of fen: " ++ quoted t
  | .columns t => "expected 8 columns per row in position part of fen: " ++ quoted t

inductive Sign
  | gap (width : Nat)
  | piece (p : Piece)
  /-- Marks the piece before it as promoted. -/
  | promoted

def sign? (c : Char) : Option Sign :=
  if '1' ≤ c ∧ c ≤ '8' then some (.gap (c.toNat - 48))
  else if c = '~' then some .promoted
  else (Piece.ofLetter? c).map .piece

/-- The cells of a row; `before` is the sign just read. -/
def rowCells (board : String) (before : Option Sign) (cells : List (Option Piece)) :
    List Char → Except Fault (List (Option Piece))
  | [] => if cells.length = 8 then .ok cells else .error (.columns board)
  | c :: rest =>
    match sign? c with
    | none => .error (.character board)
    | some (.gap width) =>
      match before with
      | some (.gap _) => .error (.twoDigits board)
      | _ => rowCells board (some (.gap width)) (cells ++ List.replicate width none) rest
    | some .promoted =>
      match before with
      | some (.piece p) =>
        rowCells board (some .promoted) (cells.dropLast ++ [some { p with promoted := true }]) rest
      | _ => .error (.promotionMark board)
    | some (.piece p) => rowCells board (some (.piece p)) (cells ++ [some p]) rest

def splitRows (row : List Char) : List Char → List (List Char)
  | [] => [row.reverse]
  | c :: rest => if c = '/' then row.reverse :: splitRows [] rest else splitRows (c :: row) rest

def readRows (board : String) : Except Fault (List (List (Option Piece))) :=
  let rows := splitRows [] board.toList
  if rows.length = 8 then rows.mapM (rowCells board none []) else .error (.rows board)

def boardOf (rows : List (List (Option Piece))) : Board :=
  let cells := (rows.reverse.flatten).toArray
  ⟨Vector.ofFn fun s => (cells[s.val]?).getD none⟩

/-- Whether the rights are two of white's letters at most and then two of black's, or a hyphen. -/
def validRights (cs : List Char) : Bool :=
  let isWhite (c : Char) : Bool := c == 'K' || c == 'Q' || ('A' ≤ c && c ≤ 'H')
  let isBlack (c : Char) : Bool := c == 'k' || c == 'q' || ('a' ≤ c && c ≤ 'h')
  let black := cs.dropWhile isWhite
  cs == ['-'] || ((cs.takeWhile isWhite).length ≤ 2 && black.length ≤ 2 && black.all isBlack)

/-- The square of the rook that a letter of the rights means. The letters of the wings mean the
outermost rook of that wing of the king, or the corner if there is no such rook. -/
def rightSquare? (b : Board) (side : Side) (letter : Char) : Option Square :=
  let rooks := (b.squaresOf side).filter fun s =>
    s.rank == Board.backRank side && b.hasKind .rook s
  match letter with
  | 'q' =>
    match b.king? side, rooks.getLast? with
    | some king, some rook =>
      if rook < king then some rook else some (Position.onBackRank side 0)
    | some _, none => none
    | none, _ => some (Position.onBackRank side 0)
  | 'k' =>
    match b.king? side, rooks.head? with
    | some king, some rook =>
      if king < rook then some rook else some (Position.onBackRank side 7)
    | _, _ => some (Position.onBackRank side 7)
  | c => some (Position.onBackRank side (c.toNat - 97))

def readRights (b : Board) (side : Side) (letters : List Char) : Wings :=
  let own := letters.filter fun c => c != '-' && c.isUpper == (side == .white)
  let squares := own.filterMap fun c => rightSquare? b side c.toLower
  Position.inPlace b side
    ⟨squares.contains (Position.aRookHome side), squares.contains (Position.hRookHome side)⟩

def readCounter (t : String) (bad negative : Fault) : Except Fault Nat :=
  match readInt t with
  | .error _ => .error bad
  | .ok i => if i < 0 then .error negative else .ok i.toNat

def readTurn (fen : String) : Option String → Except Fault Side
  | none | some "w" => .ok .white
  | some "b" => .ok .black
  | some _ => .error (.turn fen)

def readEnPassant (fen : String) : Option String → Except Fault (Option Square)
  | none | some "-" => .ok none
  | some t =>
    match Square.ofName? t with
    | some s => .ok (some s)
    | none => .error (.enPassant fen)

/-- Reads the fields in their order; the board comes last. -/
def read (fen : String) : Except Fault Position := do
  let fields := words fen
  let some board := fields[0]? | throw .empty
  let turn ← readTurn fen fields[1]?
  let letters := (fields[2]?.getD "-").toList
  if !validRights letters then throw (.castling fen)
  let enPassant ← readEnPassant fen fields[3]?
  let halfmoves ← match fields[4]? with
    | none => pure 0
    | some t => readCounter t (.halfmoves fen) (.halfmovesNegative fen)
  let fullmove ← match fields[5]? with
    | none => pure 1
    | some t => readCounter t (.fullmove fen) (.fullmoveNegative fen)
  if 6 < fields.length then throw (.excess fen)
  let b := boardOf (← readRows board)
  pure
    { board := b, turn, enPassant, halfmoves, fullmove := max fullmove 1
      rights := ⟨readRights b .white letters, readRights b .black letters⟩ }

def rowText (gap : Nat) : List (Option Piece) → List Char
  | [] => if gap = 0 then [] else [Char.ofNat (48 + gap)]
  | none :: rest => rowText (gap + 1) rest
  | some p :: rest =>
    (if gap = 0 then [] else [Char.ofNat (48 + gap)]) ++ p.letter :: rowText 0 rest

def row (b : Board) (rank : Nat) : List (Option Piece) :=
  (List.range 8).map fun file => b.get (Square.ofNat (rank * 8 + file))

def boardText (b : Board) : String :=
  "/".intercalate ((List.range 8).reverse.map fun rank => String.ofList (rowText 0 (row b rank)))

/-- The letter of a castling right. A rook that is not the outermost on its wing is named by its
file. -/
def rightLetter (p : Position) (side : Side) (king rook : Square) : Char :=
  let aSide := decide (rook.file < king.file)
  let others := (p.board.squaresOf side).filter fun s =>
    s.rank == Board.backRank side && p.board.hasKind .rook s && s != rook
  let letter :=
    if others.any fun s => decide (s.file < rook.file) == aSide then Square.fileLetter rook.file
    else if aSide then 'q' else 'k'
  match side with
  | .white => letter.toUpper
  | .black => letter

def rightsText (p : Position) : String :=
  let letters (side : Side) : List Char :=
    match p.board.king? side with
    | some king => (p.castlingRooks side).map (rightLetter p side king)
    | none => []
  match letters .white ++ letters .black with
  | [] => "-"
  | cs => String.ofList cs

/-- The text of a position. The square passed over is written if the pawn can be taken. -/
def text (p : Position) : String :=
  unwords [boardText p.board,
    (match p.turn with
      | .white => "w"
      | .black => "b"),
    rightsText p,
    (match p.takeable? with
      | some s => s.name
      | none => "-"),
    toString p.halfmoves, toString p.fullmove]

end Fen

def Position.initial : Position :=
  let home (side : Side) : List (Option Piece) :=
    [Kind.rook, .knight, .bishop, .queen, .king, .bishop, .knight, .rook].map
      fun kind => some ⟨side, kind, false⟩
  let pawns (side : Side) : List (Option Piece) := List.replicate 8 (some ⟨side, .pawn, false⟩)
  { board := Fen.boardOf
      ([home .black, pawns .black] ++ List.replicate 4 (List.replicate 8 none) ++
        [pawns .white, home .white])
    turn := .white
    rights := .both ⟨true, true⟩
    enPassant := none
    halfmoves := 0
    fullmove := 1 }

inductive MoveFault
  | unreadable (fault : Move.Fault)
  | illegal (text fen : String)
  deriving DecidableEq, Repr

def MoveFault.message : MoveFault → String
  | .unreadable fault => fault.message
  | .illegal text fen => "illegal uci: " ++ quoted text ++ " in " ++ fen

/-- The legal move that a text means. A king may be moved onto its rook to castle, and the null
move is always taken. -/
def Position.readMove (p : Position) (t : String) : Except MoveFault Move :=
  let illegal : Except MoveFault Move := .error (.illegal t (Fen.text p))
  match Move.read t with
  | .error fault => .error (.unreadable fault)
  | .ok .null => .ok .null
  | .ok .drop => illegal
  | .ok (.move m) =>
    let m := p.asKingStep (p.asRookStep m)
    if p.isLegal m then .ok m else illegal

namespace Game

def initial : Game := .start .initial

def pushAll : List String → Game → Except MoveFault Game
  | [], g => .ok g
  | t :: rest, g =>
    match g.position.readMove t with
    | .ok m => pushAll rest (g.push m)
    | .error fault => .error fault

end Game
end Zeitnot.Chess
