import Zeitnot.Clock.Horizon
import Zeitnot.Clock.Limits
import Zeitnot.Journal
/-!
The allocator. Before every search it turns the clock into two bounds: the optimum, at which a
search stops on its own, and the maximum, at which it is cut off. Times are milliseconds, or nodes
while the node counter stands for the clock.
-/
set_option autoImplicit false

namespace Zeitnot
open Number

structure Allocator where
  startTime : Int
  optimum : Int
  maximum : Int
  /-- The node budget of the game; `unseeded` until a search sets it. -/
  availableNodes : Int
  useNodes : Bool
  deriving DecidableEq, Repr

structure TimeSettings where
  moveOverhead : Int
  nodesPerMs : Int
  ponder : Bool
  deriving DecidableEq, Repr

namespace Allocator

/-- The budget of a game in which no search has counted nodes. -/
def unseeded : Int := -1

def fresh : Allocator := ⟨0, 0, 0, unseeded, false⟩

def clear (a : Allocator) : Allocator := { a with availableNodes := unseeded }

def charge (a : Allocator) (nodes : Int) : Allocator :=
  { a with availableNodes := max 0 (a.availableNodes - nodes) }

/-- Time since the search was armed: the nodes themselves, or milliseconds. -/
def elapsed (a : Allocator) (now nodes : Int) : Int :=
  if a.useNodes then nodes else now - a.startTime

def seed (a : Allocator) (nodesPerMs time : Int) : Allocator :=
  if a.availableNodes = unseeded then { a with availableNodes := nodesPerMs * time } else a

@[simp] theorem optimum_seed (a : Allocator) (nodesPerMs time : Int) :
    (a.seed nodesPerMs time).optimum = a.optimum := by unfold seed; split <;> rfl

@[simp] theorem maximum_seed (a : Allocator) (nodesPerMs time : Int) :
    (a.seed nodesPerMs time).maximum = a.maximum := by unfold seed; split <;> rfl

@[simp] theorem useNodes_seed (a : Allocator) (nodesPerMs time : Int) :
    (a.seed nodesPerMs time).useNodes = a.useNodes := by unfold seed; split <;> rfl

end Allocator

def Limits.inNodes (l : Limits) (us : Side) (budget nodesPerMs : Int) : Limits :=
  { l with
    time := l.time.set us budget
    inc := l.inc.set us (l.inc.get us * nodesPerMs)
    nodesPerMs }

section Formulas
variable {S : Type} [Scalar S]
open Scalar

def derivedAdjust (c : Constants S) (timeLeft : Int) : Except Fault S :=
  return sub (mul c.adjustLogFactor (← log10OfInt timeLeft)) c.adjustOffset

/-- Factors of the time left (for the optimum) and of the optimum (for the maximum). -/
structure Scales (S : Type) where
  opt : S
  max : S

def suddenDeathScales (c : Constants S) (time scaledTime timeLeft ply : Int) (adjust : S) :
    Except Fault (Scales S) := do
  let seconds ← Scalar.div (← ofInt (max scaledTime 1)) (ofNat 1000)
  let logTime ← log10 seconds
  let optConstant := least (add c.optBase (mul c.optLogFactor logTime)) c.optMost
  let maxConstant := greatest (add c.maxBase (mul c.maxLogFactor logTime)) c.maxLeast
  let timeLeftFactor ← quotient time timeLeft
  let power ← pow (add (← ofInt ply) c.plyOffset) c.plyExponent
  let opt := mul
    (least (add c.optOffset (mul power optConstant)) (mul c.optTimeLeftCap timeLeftFactor)) adjust
  let later ← Scalar.div (← ofInt ply) c.maxPlyDivisor
  pure ⟨opt, least c.maxScaleCap (add maxConstant later)⟩

def timeControlScales (c : Constants S) (time centiMoves timeLeft ply : Int) :
    Except Fault (Scales S) := do
  let moves ← Scalar.div (← ofInt centiMoves) (ofNat 100)
  let perMove ←
    if isZero moves then pure infinity
    else
      let share := add c.controlOptBase (← Scalar.div (← ofInt ply) c.controlPlyDivisor)
      Scalar.div share moves
  let cap ← Scalar.div (mul c.controlTimeLeftCap (← ofInt time)) (← ofInt timeLeft)
  pure ⟨least perMove cap, add c.controlMaxBase (mul c.controlMaxPerMove moves)⟩

def scalesFor (c : Constants S) (movesToGo time scaledTime centiMoves timeLeft ply : Int)
    (adjust : S) : Except Fault (Scales S) :=
  if movesToGo = 0 then suddenDeathScales c time scaledTime timeLeft ply adjust
  else timeControlScales c time centiMoves timeLeft ply

def shareOf (share : S) (time : Int) : Except Fault Int := do
  truncate (mul share (← ofInt time))

def optimumFor (c : Constants S) (time timeLeft : Int) (scale : S) : Except Fault Int := do
  let cap ← shareOf c.optimumCap time
  let aim ← shareOf scale timeLeft
  pure (max 1 (min cap aim))

/-- What the maximum aims at: a multiple of the optimum, or what a share of the clock leaves beside
the overhead, if that is less. -/
def maximumAim (c : Constants S) (time overhead optimum : Int) (scale : S) : Except Fault Int := do
  let reserve := sub (mul c.overheadCap (← ofInt time)) (← ofInt overhead)
  truncate (least reserve (mul scale (← ofInt optimum)))

def maximumFor (c : Constants S) (time overhead optimum : Int) (scale : S) : Except Fault Int := do
  let cap ← shareOf c.maximumCap time
  let aim ← maximumAim c time overhead optimum scale
  pure (max optimum (min cap aim))

def withPonder (c : Constants S) (ponder : Bool) (optimum : Int) : Except Fault Int :=
  if ponder then return optimum + (← floorDiv optimum c.ponderDivisor) else pure optimum

end Formulas

/-- What arming a search changes. A failure keeps what was changed before it. -/
structure Armed where
  allocator : Allocator
  limits : Limits
  journal : Journal
  deriving DecidableEq, Repr

abbrev Arming := ExceptT Fault (StateM Armed)

namespace Arming
variable {S : Type} [Scalar S]

def report (e : Event S) : Arming Unit := do
  let s ← get
  let journal ← s.journal.write e
  set { s with journal }

def updateAllocator (f : Allocator → Allocator) : Arming Unit :=
  modify fun s => { s with allocator := f s.allocator }

def countNodes (S : Type) [Scalar S] (us : Side) (nodesPerMs : Int) : Arming Unit := do
  updateAllocator fun a => { a with useNodes := true }
  let time := (← get).limits.time.get us
  updateAllocator fun a => a.seed nodesPerMs time
  let budget := (← get).allocator.availableNodes
  modify fun s => { s with limits := s.limits.inNodes us budget nodesPerMs }
  report (S := S) (.nodeBudget budget nodesPerMs)

/-- The adjustment of the game: derived in sudden death if it is still negative. -/
def settleAdjust (c : Constants S) (movesToGo timeLeft : Int) (adjust : S) : Arming S :=
  if movesToGo = 0 ∧ Scalar.less adjust (Scalar.ofNat 0) = true then do
    let adjust ← derivedAdjust c timeLeft
    report (.adjustDerived adjust)
    pure adjust
  else pure adjust

def setBounds (c : Constants S) (settings : TimeSettings) (us : Side) (ply : Int) (adjust : S) :
    Arming S := do
  let s ← get
  let rate := if s.allocator.useNodes then settings.nodesPerMs else 1
  let time := s.limits.time.get us
  let inc := s.limits.inc.get us
  let movesToGo := s.limits.movesToGo
  let scaledTime ← divide time rate
  report (S := S) (.clock us.name time inc movesToGo)
  let centiMoves ← centiMovesToGo c movesToGo scaledTime
  let timeLeft := effectiveTimeLeft time inc centiMoves settings.moveOverhead
  let adjust ← settleAdjust c movesToGo timeLeft adjust
  let scales ← scalesFor c movesToGo time scaledTime centiMoves timeLeft ply adjust
  let aim ← optimumFor c time timeLeft scales.opt
  updateAllocator fun a => { a with optimum := aim }
  let maximum ← maximumFor c time settings.moveOverhead aim scales.max
  updateAllocator fun a => { a with maximum }
  let optimum ← withPonder c settings.ponder aim
  updateAllocator fun a => { a with optimum }
  report (S := S) (.bounds optimum maximum settings.ponder)
  pure adjust

/-- Arms a search of side `us` at `ply`, and gives the adjustment of the game. Without a clock the
search is untimed and the bounds stay as they are. -/
def arm (c : Constants S) (settings : TimeSettings) (us : Side) (ply : Int) (adjust : S) :
    Arming S := do
  let start := (← get).limits.startTime
  updateAllocator fun a => { a with startTime := start }
  if (← get).limits.time.get us = 0 then
    updateAllocator fun a => { a with useNodes := false }
    report (S := S) .untimed
    pure adjust
  else
    if settings.nodesPerMs = 0 then updateAllocator fun a => { a with useNodes := false }
    else countNodes S us settings.nodesPerMs
    setBounds c settings us ply adjust

end Arming
end Zeitnot
