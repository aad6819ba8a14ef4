import Zeitnot.Chess.Piece
import Zeitnot.Chess.Square
import Zeitnot.Text.Quoted
set_option autoImplicit false

namespace Zeitnot.Chess
open Text

/-- A move of the piece on `source`. Castling is a move of the king by two files. -/
structure Move where
  source : Square
  target : Square
  promotion : Option Kind
  deriving DecidableEq, Repr

namespace Move

def null : Move := ⟨Square.a1, Square.a1, none⟩

def isNull (m : Move) : Bool := m == null

def text (m : Move) : String :=
  if m.isNull then "0000"
  else
    m.source.name ++ m.target.name ++
      match m.promotion with
      | some k => String.singleton k.letter
      | none => ""

inductive Fault
  | length (text : String)
  | invalid (text : String)
  /-- Both squares are the same. -/
  | standstill (text : String)
  deriving DecidableEq, Repr

def Fault.message : Fault → String
  | .length t => "expected uci string to be of length 4 or 5: " ++ quoted t
  | .invalid t => "invalid uci: " ++ quoted t
  | .standstill t => "invalid uci (use 0000 for null moves): " ++ quoted t

inductive Reading
  | null
  | move (m : Move)
  /-- A new piece is put on the board, which is never legal. -/
  | drop
  deriving DecidableEq, Repr

def ofChars (t : String) (a b c d : Char) (promotion : Option Char) : Except Fault Reading :=
  match Square.ofChars? a b, Square.ofChars? c d with
  | some source, some target =>
    let kind : Except Fault (Option Kind) :=
      match promotion with
      | none => .ok none
      | some e =>
        match Kind.ofLetter? e with
        | some k => .ok (some k)
        | none => .error (.invalid t)
    kind.bind fun promotion =>
      if source = target then .error (.standstill t) else .ok (.move ⟨source, target, promotion⟩)
  | _, _ => .error (.invalid t)

def read (t : String) : Except Fault Reading :=
  match t.toList with
  | ['0', '0', '0', '0'] => .ok .null
  | [a, '@', c, d] =>
    if (Kind.ofLetter? (Piece.smallLetter a)).isSome && (Square.ofChars? c d).isSome then
      .ok .drop
    else .error (.invalid t)
  | [a, b, c, d] => ofChars t a b c d none
  | [a, b, c, d, e] => ofChars t a b c d (some e)
  | _ => .error (.length t)

example : (read "e2e4").toOption = some (.move ⟨12, 28, none⟩) := by decide +kernel

end Move
end Zeitnot.Chess
