import Zeitnot.Side
set_option autoImplicit false

namespace Zeitnot

structure Limits where
  time : PerSide Int
  inc : PerSide Int
  /-- Moves until the next time control; zero in sudden death. -/
  movesToGo : Int
  /-- Nodes that stand for a millisecond, once the clock is counted in nodes. -/
  nodesPerMs : Int
  startTime : Int
  depth : Int
  nodes : Int
  moveTime : Int
  infinite : Bool
  ponder : Bool
  deriving DecidableEq, Repr

namespace Limits

def unlimited (now : Int) : Limits :=
  { time := .both 0, inc := .both 0, movesToGo := 0, nodesPerMs := 0, startTime := now,
    depth := 0, nodes := 0, moveTime := 0, infinite := false, ponder := false }

def forSide (us : Side) (time inc movesToGo startTime : Int) : Limits :=
  { unlimited startTime with
    time := (PerSide.both 0).set us time
    inc := (PerSide.both 0).set us inc
    movesToGo }

def hasClock (l : Limits) : Bool := l.time.white != 0 || l.time.black != 0

theorem hasClock_of_time {l : Limits} {us : Side} (h : l.time.get us ≠ 0) :
    l.hasClock = true := by
  cases us <;> simp_all [hasClock, PerSide.get]

end Limits
end Zeitnot
