import Zeitnot.Engine
import Zeitnot.Uci.Go
/-!
The protocol between a chess program and its user interface: lines of commands, each answered by
lines. A command that fails is answered by one line that says why, and the next one is read.
-/
set_option autoImplicit false

namespace Zeitnot.Uci
open Chess Config Number Text

inductive Fault
  | malformedOption (line : String)
  | malformedPosition (line : String)
  | fen (fault : Fen.Fault)
  | move (fault : MoveFault)
  | go (fault : GoFault)
  | session (fault : SessionFault)
  deriving DecidableEq, Repr

def Fault.message : Fault → String
  | .malformedOption line => s!"Malformed setoption: {line}"
  | .malformedPosition line => s!"Malformed position: {line}"
  | .fen fault => fault.message
  | .move fault => fault.message
  | .go fault => fault.message
  | .session fault => fault.message

/-- The words before and after the first `w`; `none` if it does not occur. -/
def splitAtWord? (w : String) (ws : List String) : Option (List String × List String) :=
  if ws.contains w then some (ws.takeWhile (· ≠ w), (ws.dropWhile (· ≠ w)).drop 1) else none

def readPosition (line : String) : Except Fault Game := do
  let ws := words line
  let (head, moves) := (splitAtWord? "moves" ws).getD (ws, [])
  let start : Except Fault Game :=
    match head.drop 1 with
    | "startpos" :: _ => .ok .initial
    | "fen" :: fields => ((Fen.read (unwords fields)).mapError .fen).map .start
    | _ => .error (.malformedPosition line)
  (Game.pushAll moves (← start)).mapError .move

def readOption (line : String) : Except Fault (String × String) :=
  match words line with
  | _ :: "name" :: w :: ws =>
    let (name, value) := (splitAtWord? "value" (w :: ws)).getD (w :: ws, [])
    .ok (unwords name, unwords value)
  | _ => .error (.malformedOption line)

/-- What tells the time of a conversation. Nothing is asked of what it shows. -/
class Timepiece (C : Type) where
  /-- The time at which a command is read. -/
  reading : C → Int
  /-- The times that a search sees. -/
  shown : C → Engine.Clock
  /-- The timepiece after a search of so many nodes. -/
  after : C → Nat → C

instance : Timepiece NodeClock := ⟨fun c => c.now 0, fun c _ => c.now, NodeClock.after⟩

structure State (S : Type) (C : Type := NodeClock) where
  engine : Engine
  record : SearchRecord
  game : Game
  moveNumber : Nat
  session : Session S
  clock : C

def State.start {S C : Type} (engine : Engine) (clock : C) (session : Session S) : State S C :=
  ⟨engine, .none, .initial, 0, session, clock⟩

inductive Request
  | identify
  | isReady
  | newGame
  | position
  | go
  | setOption
  | unknown
  deriving DecidableEq, Repr

/-- Some commands are whole lines, the others are known by how the line starts. -/
def Request.of (line : String) : Request :=
  let starts (w : String) : Bool := w.toList.isPrefixOf line.toList
  if line = "uci" then .identify
  else if line = "isready" then .isReady
  else if line = "ucinewgame" then .newGame
  else if starts "position" then .position
  else if starts "go" then .go
  else if starts "setoption" then .setOption
  else .unknown

abbrev Reply (S C : Type) := Except Fault (List String) × State S C

section
variable {S C : Type} [Scalar S]

def State.onSession (u : State S C) (act : Session.Action S Unit) :
    Except Fault Unit × State S C :=
  let (result, session) := act.run.run u.session
  (result.mapError .session, { u with session })

def identification (o : Options) : List String :=
  ["id name ChessTimeman", "id author Chess Engine Team"] ++ o.announcements ++ ["uciok"]

def State.handleOption (u : State S C) (line : String) : Reply S C :=
  match readOption line with
  | .error fault => (.error fault, u)
  | .ok (name, value) =>
    let act : Session.Action S Unit := do
      Session.setOption name (.text value)
      let shown := match (← get).options.get name with
        | .ok v => v.plain
        | .error _ => ""
      Session.report (.info s!"Option {name} set to {shown}")
    let (result, u) := u.onSession act
    (result.map fun _ => [], u)

def State.handlePosition (u : State S C) (line : String) : Reply S C :=
  match readPosition line with
  | .error fault => (.error fault, u)
  | .ok game => (.ok [], { u with game })

def boundsLine (s : Session S) (us : Side) : List String :=
  match s.limits with
  | some l =>
    if l.time.get us = 0 then []
    else [s!"info string optimum {s.allocator.optimum} maximum {s.allocator.maximum}"]
  | none => []

def State.answer (u : State S C) (us : Side) (move : Option Move) : Reply S C :=
  let info := boundsLine u.session us ++
    [s!"info depth {u.record.depth} nodes {u.record.nodes}"]
  match move with
  | none =>
    let (result, u) := u.onSession (Session.report (.failed "No legal move, sending null move"))
    (result.map fun _ => info ++ ["bestmove 0000"], u)
  | some m =>
    let event : Event S := .moveSent (u.game.position.san m) !u.record.interrupted
    let (result, u) := u.onSession (Session.report event)
    (result.map fun _ => info ++ ["bestmove " ++ m.text], u)

variable [Timepiece C]

def State.search (u : State S C) (limits : Limits) : Reply S C :=
  let us := u.game.position.turn
  let u := { u with moveNumber := u.moveNumber + 1 }
  let number := u.moveNumber
  let fen := Fen.text u.game.position
  let announce : Session.Action S Unit := do
    Session.report (.note s!"=== MOVE {number} ===")
    Session.report (.note s!"Board FEN: {fen}")
  match u.onSession announce with
  | (.error fault, u) => (.error fault, u)
  | (.ok _, u) =>
    let t := u.engine.thinkBy u.game limits (Timepiece.shown u.clock) u.record u.session
    let u := { u with
      record := t.record
      session := t.session
      game := t.game
      clock := Timepiece.after u.clock t.nodes }
    match t.move with
    | .error fault => (.error (.session fault), u)
    | .ok move => u.answer us move

def State.handleGo (u : State S C) (line : String) : Reply S C :=
  match readLimits (Timepiece.reading u.clock) line with
  | .error fault => (.error (.go fault), u)
  | .ok limits => u.search limits

def State.handle (u : State S C) (line : String) : Reply S C :=
  match Request.of line with
  | .identify => (.ok (identification u.session.options), u)
  | .isReady => (.ok ["readyok"], u)
  | .newGame => (.ok [], { u with game := .initial, moveNumber := 0, session := u.session.newGame })
  | .position => u.handlePosition line
  | .go => u.handleGo line
  | .setOption => u.handleOption line
  | .unknown => (.ok [s!"info string Unknown command: {line}"], u)

def State.respond (u : State S C) (line : String) : List String × State S C :=
  match u.handle line with
  | (.ok lines, u) => (lines, u)
  | (.error fault, u) =>
    let (_, u) := u.onSession (Session.report (.failed fault.message))
    ([s!"info string Error: " ++ fault.message], u)

/-- The answer to a line of input; none if it ends the conversation. Empty lines are passed over. A
line is text without lone surrogates, and what is reported is only kept in the journal: the program
around the conversation writes it to a file, between one answer and the next line. -/
def State.receive (u : State S C) (line : String) : Option (List String × State S C) :=
  let line := strip line
  if line.isEmpty then some ([], u)
  else if line = "quit" then none
  else some (u.respond line)

def State.converse (u : State S C) : List String → List (List String) × State S C
  | [] => ([], u)
  | line :: rest =>
    match u.receive line with
    | none => ([], u)
    | some (out, u) =>
      let (outs, u) := u.converse rest
      (out :: outs, u)

end
end Zeitnot.Uci
