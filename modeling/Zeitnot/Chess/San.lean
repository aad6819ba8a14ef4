import Zeitnot.Chess.Ending
set_option autoImplicit false

namespace Zeitnot.Chess
namespace Position

def rivals (p : Position) (kind : Kind) (m : Move) : List Square :=
  (p.legalIn ⟨fun s => p.board.holds p.turn kind s && s != m.source, (· == m.target)⟩).map
    (·.source)

def disambiguation (m : Move) (rivals : List Square) : List Char :=
  if rivals.isEmpty then []
  else
    let sameRank := rivals.any (·.rank == m.source.rank)
    let sameFile := rivals.any (·.file == m.source.file)
    (if sameRank || !sameFile then [Square.fileLetter m.source.file] else []) ++
      (if sameFile then [Square.rankLetter m.source.rank] else [])

def sanBody (p : Position) (m : Move) : String :=
  if m.isNull then "--"
  else if p.isCastling m then
    if m.target.file < m.source.file then "O-O-O" else "O-O"
  else
    match p.board.get m.source with
    | none => m.text
    | some piece =>
      let capture := p.isCapture m
      let lead :=
        if piece.kind = .pawn then
          if capture then [Square.fileLetter m.source.file] else []
        else piece.kind.letter.toUpper :: disambiguation m (p.rivals piece.kind m)
      let promotion := match m.promotion with
        | some k => ['=', k.letter.toUpper]
        | none => []
      String.ofList (lead ++ (if capture then ['x'] else []) ++ m.target.name.toList ++ promotion)

def san (p : Position) (m : Move) : String :=
  let after := p.play m
  let mark :=
    if m.isNull || !after.inCheck then "" else if after.hasMove then "+" else "#"
  p.sanBody m ++ mark

end Position
end Zeitnot.Chess
