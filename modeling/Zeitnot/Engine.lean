import Zeitnot.Chess.Fen
import Zeitnot.Chess.Material
import Zeitnot.Chess.San
import Zeitnot.Clock.NodeClock
import Zeitnot.Search.Walk
import Zeitnot.Session
set_option autoImplicit false

namespace Zeitnot
open Chess Number Search

structure Engine where
  maxDepth : Int
  /-- The depth of a search that is given no clock, no node or time limit and no depth. -/
  defaultDepth : Int
  /-- The limits are looked at after every so many nodes. -/
  checkEvery : Int
  deriving DecidableEq, Repr

structure SearchRecord where
  value : Option Int
  depth : Nat
  nodes : Nat
  interrupted : Bool
  deriving DecidableEq, Repr

def SearchRecord.none : SearchRecord := ⟨Option.none, 0, 0, false⟩

namespace Engine

def standard : Engine := ⟨64, 4, 1024⟩

inductive Glance
  /-- For the limit on the time of the move. -/
  | moveTime
  /-- For the maximum, at which the search is cut off. -/
  | maximum
  /-- For the optimum, at the end of a depth. -/
  | optimum
  /-- For what is reported of a step. -/
  | report
  /-- For the time of the whole search. -/
  | ending
  deriving DecidableEq, Repr

/-- What the clock shows at a glance after so many nodes. A search looks at most once for the same
reason after the same nodes, so that this is any clock at all. -/
abbrev Clock := Glance → Nat → Int

def chessRules : Rules Game Move where
  moves g := g.position.order g.legalMoves
  play g m := g.push m
  isMate g := g.position.isCheckmate
  isDrawn g := g.isDrawn
  evaluate g := g.position.evaluate

def depthLimit (e : Engine) (l : Limits) : Int :=
  if l.depth ≠ 0 then min l.depth e.maxDepth
  else if l.hasClock || l.moveTime != 0 || l.nodes != 0 then e.maxDepth
  else e.defaultDepth

section
variable {S : Type} (s : Session S) (l : Limits) (clock : Clock)

def outOfTime (nodes : Nat) : Bool :=
  (l.nodes != 0 && decide (l.nodes ≤ nodes)) ||
    (l.moveTime != 0 && decide (l.moveTime ≤ s.elapsedTime (clock .moveTime nodes))) ||
    (!l.infinite && s.shouldStop (clock .maximum nodes) nodes)

def optimumReached (nodes : Nat) : Bool :=
  s.hasClock && !l.infinite && decide (s.allocator.optimum ≤ s.elapsed (clock .optimum nodes) nodes)

def watch (e : Engine) : Watch := ⟨e.checkEvery, outOfTime s l clock⟩

def goal (e : Engine) : Goal := ⟨e.maxDepth, e.depthLimit l, optimumReached s l clock⟩

def eventOf (g : Game) : Step Move → Event S
  | .completed depth nodes move value =>
    .depthCompleted depth (s.elapsed (clock .report nodes) nodes) (g.position.san move) (some value)
  | .satisfied depth nodes =>
    .softStop depth (s.elapsed (clock .optimum nodes) nodes) s.allocator.optimum
  | .cutOff depth nodes =>
    .hardStop depth (s.elapsed (clock .report nodes) nodes) s.allocator.maximum

end

structure Thought (S : Type) where
  move : Except SessionFault (Option Move)
  record : SearchRecord
  /-- The nodes of this search. The record keeps those of the last one if the session cannot be
  started. -/
  nodes : Nat
  session : Session S
  /-- The game searched. A search that fails leaves the move on it that it was looking at. -/
  game : Game

variable {S : Type} [Scalar S]

def wrapUp (us : Side) (now : Int) (nodes : Nat) : Session.Action S Unit := do
  Session.finish nodes us
  Session.report (S := S) (.searchCompleted ((← get).elapsedTime now) nodes)

/-- Tells the steps of a search, and wraps it up unless it has failed. -/
def conclude (g : Game) (clock : Clock) (r : Search.Progress Move) :
    Session.Action S (Option Move) := do
  let s ← get
  for step in r.steps do
    Session.report (eventOf s clock g step)
  match r.fault with
  | some fault => throw (.arithmetic fault)
  | none =>
    wrapUp g.position.turn (clock .ending r.nodes) r.nodes
    pure (some r.best)

def thinkBy (e : Engine) (g : Game) (limits : Limits) (clock : Clock) (last : SearchRecord)
    (s : Session S) : Thought S :=
  let root := Root.position g.position.ply g.position.turn
  match (Session.start limits root none).run.run s with
  | (.error fault, s) => ⟨.error fault, last, 0, s, g⟩
  | (.ok _, s) =>
    let limits := s.limits.getD limits
    match searchOn chessRules Game.pop (e.watch s limits clock) (e.goal s limits clock) g with
    | (none, game) =>
      let (result, s) := (Session.finish 0 g.position.turn).run.run s
      ⟨result.map fun _ => none, .none, 0, s, game⟩
    | (some r, game) =>
      let (move, s) := (conclude g clock r).run.run s
      ⟨move, ⟨r.value, r.depth, r.nodes, r.interrupted⟩, r.nodes, s, game⟩

/-- Searches a game under limits, with `now` the time after so many nodes on record. The clock
shows the start of the search from the first, so that none are left on record from the last. -/
def think (e : Engine) (g : Game) (limits : Limits) (now : Nat → Int) (last : SearchRecord)
    (s : Session S) : Thought S := e.thinkBy g limits (fun _ => now) { last with nodes := 0 } s

/-- Arms the session and charges one node for every legal move, of which any may be chosen. -/
def drawLots (g : Game) (limits : Limits) : Session.Action S (List Move) := do
  Session.start limits (.position g.position.ply g.position.turn) none
  let moves := g.legalMoves
  Session.finish moves.length g.position.turn
  pure moves

end Engine
end Zeitnot
