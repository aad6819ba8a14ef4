import Zeitnot.Options.Table
/-!
The session of one game: the allocator, the options, and the adjustment that the first search in
sudden death derives and the later ones reuse. `Command` lists what can be asked of a session, and
`Session.run` carries out a list of commands.
-/
set_option autoImplicit false

namespace Zeitnot
open Number Config

inductive SessionFault
  | arithmetic (fault : Fault)
  | option (fault : OptionFault)
  /-- Nodes are charged although they are not counted. -/
  | notByNodes
  /-- A ply count does not tell the side to move. -/
  | sideRequired
  deriving DecidableEq, Repr

def SessionFault.message : SessionFault → String
  | .arithmetic fault => fault.message
  | .option fault => fault.message
  | .notByNodes => "advance_nodes_time requires nodestime mode"
  | .sideRequired => "side to move is required when a ply count is given"

structure Session (S : Type) where
  constants : Constants S
  options : Options
  allocator : Allocator
  /-- The adjustment of the game; negative until it is derived. -/
  adjust : S
  /-- The limits of the last search, as the allocator left them. -/
  limits : Option Limits
  journal : Journal
  deriving Repr

/-- Where a search starts: a position, or only its ply. -/
inductive Root
  | count (ply : Int)
  | position (ply : Int) (turn : Side)
  deriving DecidableEq, Repr

def Root.plyCount : Root → Int
  | .count ply => ply
  | .position ply _ => ply

def Root.turn? : Root → Option Side
  | .count _ => none
  | .position _ turn => some turn

namespace Session
variable {S : Type}

def elapsed (s : Session S) (now nodes : Int) : Int := s.allocator.elapsed now nodes

def elapsedTime (s : Session S) (now : Int) : Int := now - s.allocator.startTime

def hasClock (s : Session S) : Bool := s.limits.any (·.hasClock)

def shouldStop (s : Session S) (now nodes : Int) : Bool :=
  s.hasClock && decide (s.allocator.maximum < s.elapsed now nodes)

variable [Scalar S]

/-- The adjustment of a game that has not derived one. -/
def noAdjust : S := Scalar.sub (Scalar.ofNat 0) (Scalar.ofNat 1)

def fresh (constants : Constants S) (options : Options) (journal : Journal) : Session S :=
  ⟨constants, options, .fresh, noAdjust, none, journal⟩

abbrev Action (S α : Type) := ExceptT SessionFault (StateM (Session S)) α

/-- Carries out an arming with the allocator and the journal of the session, whatever comes of
it, and gives the limits it leaves. -/
def armed (us : Side) (ply : Int) (adjust : S) (limits : Limits) (s : Session S) :
    Except Fault S × Limits × Session S :=
  let (result, after) := (Arming.arm s.constants s.options.timeSettings us ply adjust).run.run
    ⟨s.allocator, limits, s.journal⟩
  (result, after.limits, { s with allocator := after.allocator, journal := after.journal })

def arm (limits : Limits) (us : Side) (ply : Int) (adjust : S) : Action S S := fun s =>
  let (result, _, s) := s.armed us ply adjust limits
  (result.mapError .arithmetic, s)

/-- Starts a search. The session keeps the limits even if arming fails, but no adjustment. -/
def start (limits : Limits) (root : Root) (us : Option Side) : Action S Unit := do
  let some us := us <|> root.turn? | throw .sideRequired
  let s ← get
  let (result, limits, s) := s.armed us root.plyCount s.adjust limits
  match result with
  | .ok adjust => set { s with adjust, limits := some limits }
  | .error fault =>
    set { s with limits := some limits }
    throw (.arithmetic fault)

def report (e : Event S) : Action S Unit := do
  let s ← get
  match s.journal.write e with
  | .ok journal => set { s with journal }
  | .error fault => throw (.arithmetic fault)

def advance (nodes : Int) : Action S Unit := do
  if (← get).allocator.useNodes then
    modify fun s => { s with allocator := s.allocator.charge nodes }
    report (.nodesCharged nodes (← get).allocator.availableNodes)
  else throw .notByNodes

/-- Charges the nodes of a search, less the increment of its side, which counts in nodes too. -/
def finish (nodes : Int) (us : Side) : Action S Unit := do
  let s ← get
  match s.limits with
  | some l =>
    if l.nodesPerMs ≠ 0 ∧ s.allocator.useNodes = true then advance (nodes - l.inc.get us)
    else pure ()
  | none => pure ()

def newGame (s : Session S) : Session S :=
  { s with allocator := s.allocator.clear, adjust := noAdjust }

def setOption (name : String) (raw : Value) : Action S Unit := do
  let s ← get
  match s.options.set name raw with
  | .ok options => set { s with options }
  | .error fault => throw (.option fault)

end Session

inductive Command (S : Type)
  | newGame
  | start (limits : Limits) (root : Root) (us : Option Side)
  | finish (nodes : Int) (us : Side)
  | shouldStop (nodes : Int)
  | elapsed (nodes : Int)
  | elapsedTime
  | bounds
  | hasClock
  | setOption (name : String) (raw : Value)
  | resetOptions
  | clear
  | advance (nodes : Int)
  | arm (limits : Limits) (us : Side) (ply : Int) (adjust : S)

inductive Answer (S : Type)
  | done
  | truth (b : Bool)
  | count (i : Int)
  | bounds (optimum maximum : Int)
  | adjust (a : S)
  deriving Repr

namespace Session
variable {S : Type} [Scalar S]

def perform (now : Int) : Command S → Action S (Answer S)
  | .newGame => do
    modify newGame
    pure .done
  | .start limits root us => do
    start limits root us
    pure .done
  | .finish nodes us => do
    finish nodes us
    pure .done
  | .shouldStop nodes => return .truth ((← get).shouldStop now nodes)
  | .elapsed nodes => return .count ((← get).elapsed now nodes)
  | .elapsedTime => return .count ((← get).elapsedTime now)
  | .bounds => return .bounds (← get).allocator.optimum (← get).allocator.maximum
  | .hasClock => return .truth (← get).hasClock
  | .setOption name raw => do
    setOption name raw
    pure .done
  | .resetOptions => do
    modify fun s => { s with options := s.options.reset }
    pure .done
  | .clear => do
    modify fun s => { s with allocator := s.allocator.clear }
    pure .done
  | .advance nodes => do
    advance nodes
    pure .done
  | .arm limits us ply adjust => return .adjust (← arm limits us ply adjust)

def step (s : Session S) (now : Int) (c : Command S) :
    Except SessionFault (Answer S) × Session S :=
  (perform now c).run.run s

/-- Carries out commands one after another, each at its own time; one that fails does not stop
those after it. -/
def run (s : Session S) : List (Int × Command S) →
    List (Except SessionFault (Answer S)) × Session S
  | [] => ([], s)
  | (now, c) :: rest =>
    let (answer, s) := s.step now c
    let (answers, s) := s.run rest
    (answer :: answers, s)

/-- The limits that come with a command, as it leaves them. -/
def limitsAfter (s : Session S) : Command S → Option Limits
  | .start limits root us? =>
    match us? <|> root.turn? with
    | some us => some (s.armed us root.plyCount s.adjust limits).2.1
    | none => some limits
  | .arm limits us ply adjust => some (s.armed us ply adjust limits).2.1
  | _ => none

end Session

/-- A search of a game: what it is started with, its side, and the nodes that it uses. -/
structure Round where
  limits : Limits
  root : Root
  given : Option Side
  us : Side
  side : (given <|> root.turn?) = some us
  nodes : Int

namespace Round

def time (r : Round) : Int := r.limits.time.get r.us

def inc (r : Round) : Int := r.limits.inc.get r.us

end Round

structure Started (S : Type) where
  answer : Except SessionFault Unit
  optimum : Int
  maximum : Int
  adjust : S

namespace Session
variable {S : Type} [Scalar S]

def play (s : Session S) (r : Round) : Started S × Session S :=
  let (answer, started) := (start r.limits r.root r.given).run.run s
  let (_, finished) := (finish r.nodes r.us).run.run started
  (⟨answer, started.allocator.optimum, started.allocator.maximum, started.adjust⟩, finished)

def game (s : Session S) : List Round → List (Started S) × Session S
  | [] => ([], s)
  | r :: rs =>
    let (started, s) := s.play r
    let (later, s) := s.game rs
    (started :: later, s)

end Session
end Zeitnot
