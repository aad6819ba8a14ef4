import Zeitnot.Number.Scalar
/-!
The journal: what happened during allocation and search, as lines of text. A quiet journal keeps
nothing, and no text is made for it.
-/
set_option autoImplicit false

namespace Zeitnot
open Number

inductive Event (S : Type)
  | note (text : String)
  | clock (side : String) (time inc movesToGo : Int)
  | untimed
  | nodeBudget (available perMs : Int)
  | adjustDerived (value : S)
  | bounds (optimum maximum : Int) (ponder : Bool)
  | nodesCharged (nodes available : Int)
  | depthCompleted (depth elapsed : Int) (move : String) (value : Option Int)
  | softStop (depth elapsed optimum : Int)
  | hardStop (depth elapsed maximum : Int)
  | searchCompleted (elapsed nodes : Int)
  | moveSent (san : String) (completed : Bool)
  | failed (message : String)
  | info (message : String)
  deriving Repr

variable {S : Type} [Scalar S]

def secondsText (S : Type) [Scalar S] (ms : Int) : Except Fault String :=
  return Scalar.fixed 1 (← Scalar.quotient (S := S) ms 1000) ++ "s"

/-- Nodes per second as a whole number; zero if no time has passed. -/
def speedText (S : Type) [Scalar S] (elapsed nodes : Int) : Except Fault String :=
  if 0 < elapsed then
    return Scalar.fixed 0 (← Scalar.quotient (S := S) (nodes * 1000) elapsed)
  else pure "0"

/-- The lines of an event. Integers are written out, however long they are. -/
def Event.lines : Event S → Except Fault (List String)
  | .note text => pure [text]
  | .clock side time inc movesToGo => do
    let time ← secondsText S time
    let inc ← secondsText S inc
    let control := if movesToGo ≠ 0 then s!"{movesToGo} moves to go" else "sudden death"
    pure [s!"⏱️ Clock ({side}): {time} + {inc}, {control}"]
  | .untimed => pure ["♾️ No clock time given, search is untimed"]
  | .nodeBudget available perMs =>
    pure [s!"🔢 Nodes as time: {available} nodes available at {perMs} nodes/ms"]
  | .adjustDerived value => pure ["📐 Original time adjust: " ++ Scalar.fixed 4 value]
  | .bounds optimum maximum ponder =>
    pure [s!"⏰ Time bounds: optimum {optimum}, maximum {maximum}" ++
      if ponder then " (ponder)" else ""]
  | .nodesCharged nodes available =>
    pure [s!"🔢 Nodes used: {nodes}, remaining budget: {available}"]
  | .depthCompleted depth elapsed move value =>
    let value := match value with
      | some v => toString v
      | none => "None"
    pure [s!"✅ Depth {depth} completed at {elapsed}: {move} ({value})"]
  | .softStop depth elapsed optimum =>
    pure [s!"⏰ Optimum reached after depth {depth} ({elapsed}/{optimum})"]
  | .hardStop depth elapsed maximum =>
    pure [s!"🛑 Maximum exceeded during depth {depth} ({elapsed}/{maximum})"]
  | .searchCompleted elapsed nodes => do
    let speed ← speedText S elapsed nodes
    pure [s!"⏱️ Search completed in {elapsed}ms", s!"🚀 Speed: {speed} nodes/s"]
  | .moveSent san completed =>
    let status := if completed then "completed" else "timeout"
    pure [s!"🎯 Move sent: {san} ({status})"]
  | .failed message => pure [s!"❌ Error: {message}"]
  | .info message => pure [s!"ℹ️  {message}"]

structure Journal where
  quiet : Bool
  lines : List String
  deriving DecidableEq, Repr

namespace Journal

def silent : Journal := ⟨true, []⟩

def attentive : Journal := ⟨false, []⟩

/-- Adds the lines of an event. Only a journal that keeps lines can fail. -/
def write (j : Journal) (e : Event S) : Except Fault Journal :=
  if j.quiet then pure j else return { j with lines := j.lines ++ (← e.lines) }

def drain (j : Journal) : List String × Journal := (j.lines, { j with lines := [] })

theorem write_of_quiet {j : Journal} (h : j.quiet = true) (e : Event S) :
    j.write e = .ok j := by simp [write, h]; rfl

end Journal
end Zeitnot
