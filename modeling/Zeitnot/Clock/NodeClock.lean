set_option autoImplicit false

namespace Zeitnot

structure NodeClock where
  /-- The reading before the search, in nanoseconds. -/
  base : Int
  /-- Nanoseconds that a node takes. -/
  perNode : Int
  deriving DecidableEq, Repr

namespace NodeClock

/-- Whole milliseconds after some nodes. -/
def now (c : NodeClock) (nodes : Nat) : Int := Int.fdiv (c.base + c.perNode * nodes) 1000000

def later (c : NodeClock) (ns : Int) : NodeClock := { c with base := c.base + ns }

def after (c : NodeClock) (nodes : Nat) : NodeClock := c.later (c.perNode * nodes)

end NodeClock
end Zeitnot
