import Zeitnot.Clock.Limits
import Zeitnot.Text.Numeral
/-!
The limits of a search as words: `infinite`, `ponder`, and keywords with an integer each. Words are
first cut into segments; each segment then sets what it names, so that of a keyword given twice the
last one counts.
-/
set_option autoImplicit false

namespace Zeitnot.Uci
open Text

inductive GoField
  | time (side : Side)
  | inc (side : Side)
  | movesToGo
  | depth
  | nodes
  | moveTime
  deriving DecidableEq, Repr

namespace GoField

def all : List GoField :=
  [time .white, time .black, inc .white, inc .black, movesToGo, depth, nodes, moveTime]

def keyword : GoField → String
  | time .white => "wtime"
  | time .black => "btime"
  | inc .white => "winc"
  | inc .black => "binc"
  | movesToGo => "movestogo"
  | depth => "depth"
  | nodes => "nodes"
  | moveTime => "movetime"

def ofKeyword? (w : String) : Option GoField := all.find? fun f => f.keyword == w

def set (l : Limits) (i : Int) : GoField → Limits
  | time side => { l with time := l.time.set side i }
  | inc side => { l with inc := l.inc.set side i }
  | movesToGo => { l with movesToGo := i }
  | depth => { l with depth := i }
  | nodes => { l with nodes := i }
  | moveTime => { l with moveTime := i }

end GoField

inductive Segment
  | infinite
  | ponder
  | field (f : GoField) (value : Int)
  deriving DecidableEq, Repr

def Segment.apply (l : Limits) : Segment → Limits
  | infinite => { l with infinite := true }
  | ponder => { l with ponder := true }
  | field f value => f.set l value

def Segment.words : Segment → List String
  | infinite => ["infinite"]
  | ponder => ["ponder"]
  | field f value => [f.keyword, toString value]

inductive GoFault
  | missingValue (keyword : String)
  | numeral (fault : NumeralFault)
  | unknown (word : String)
  deriving DecidableEq, Repr

def GoFault.message : GoFault → String
  | .missingValue keyword => s!"Missing value for {keyword}"
  | .numeral fault => fault.message
  | .unknown word => s!"Unknown go argument: {word}"

def readSegments : List String → Except GoFault (List Segment)
  | [] => .ok []
  | w :: rest =>
    match GoField.ofKeyword? w, rest with
    | some _, [] => .error (.missingValue w)
    | some f, v :: rest =>
      match readInt v with
      | .error fault => .error (.numeral fault)
      | .ok i => (readSegments rest).map (.field f i :: ·)
    | none, rest =>
      if w = "infinite" then (readSegments rest).map (.infinite :: ·)
      else if w = "ponder" then (readSegments rest).map (.ponder :: ·)
      else .error (.unknown w)

def readLimits (now : Int) (line : String) : Except GoFault Limits :=
  (readSegments ((words line).drop 1)).map fun segments =>
    segments.foldl Segment.apply (.unlimited now)

end Zeitnot.Uci
