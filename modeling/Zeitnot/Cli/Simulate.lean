import Zeitnot.Cli.Arguments
import Zeitnot.Simulation
import Zeitnot.Text.RealNumeral
set_option autoImplicit false

namespace Zeitnot.Cli
open Number Text

def acceptsInt (s : String) : Bool := (readInt s).toOption.isSome

def acceptsReal (s : String) : Bool := (readReal? s).isSome

def simulateSpec : Spec where
  flags := ["--moves", "--movestogo", "--overhead", "--start-ply", "--every"].map
    fun name => ⟨name, acceptsInt⟩
  positionals := [acceptsReal, acceptsReal]

structure SimulateOrder where
  initialSeconds : Float
  incrementSeconds : Float
  moves : Int
  movesToGo : Int
  overhead : Int
  startPly : Int
  /-- Every so many moves one is printed. -/
  every : Int

def intOption (flags : List (String × String)) (name : String) (default : Int) : Int :=
  match lastValue? flags name with
  | some v => (readInt v).toOption.getD default
  | none => default

def SimulateOrder.of (positionals : List String) (flags : List (String × String)) :
    SimulateOrder :=
  let seconds (i : Nat) : Float := ((positionals[i]?).bind readReal?).getD 0
  { initialSeconds := seconds 0
    incrementSeconds := seconds 1
    moves := intOption flags "--moves" 80
    movesToGo := intOption flags "--movestogo" 0
    overhead := intOption flags "--overhead" 10
    startPly := intOption flags "--start-ply" 0
    every := intOption flags "--every" 5 }

def SimulateOrder.plan (o : SimulateOrder) : Except Fault Simulation.Plan := do
  let initial ← Binary64.truncate (o.initialSeconds * 1000)
  let increment ← Binary64.truncate (o.incrementSeconds * 1000)
  pure ⟨initial, increment, o.moves, o.movesToGo, o.overhead, o.startPly⟩

def alignRight (width : Nat) (s : String) : String :=
  String.ofList (List.replicate (width - s.length) ' ') ++ s

def tableHeader : String :=
  alignRight 5 "ply" ++ " " ++ alignRight 10 "clock" ++ " " ++ alignRight 9 "optimum" ++ " " ++
    alignRight 9 "maximum"

def clockSeconds (ms : Int) : Except Fault String :=
  return fixedText 2 (← (Scalar.quotient ms 1000 : Except Fault Float))

def tableRow (r : Simulation.Record) : Except Fault String := do
  let clock ← clockSeconds r.clockBefore
  pure (alignRight 5 (toString r.ply) ++ " " ++ alignRight 9 clock ++ "s " ++
    alignRight 7 (toString r.optimum) ++ "ms " ++ alignRight 7 (toString r.maximum) ++ "ms")

inductive Ending
  | exit (code : Nat)
  | failed (fault : SessionFault)
  deriving DecidableEq, Repr

def tableRows (every : Int) (count : Nat) : (i : Nat) → List Simulation.Record →
    List String × Option Fault
  | _, [] => ([], none)
  | i, r :: rest =>
    match floorMod i every with
    | .error fault => ([], some fault)
    | .ok m =>
      if m = 0 ∨ i + 1 = count then
        match tableRow r with
        | .error fault => ([], some fault)
        | .ok row =>
          let (rows, fault) := tableRows every count (i + 1) rest
          (row :: rows, fault)
      else tableRows every count (i + 1) rest

def closing (r : Simulation.Report Float) : List String × Ending :=
  let count := r.records.length
  let adjust :=
    if r.adjust ≥ 0 then ["", "📐 Original time adjust: " ++ fixedText 4 r.adjust] else []
  if r.flagged then (adjust ++ [s!"❌ Flagged after {count} moves"], .exit 1)
  else
    match clockSeconds r.finalClock with
    | .ok clock => (adjust ++ [s!"✅ Finished {count} moves with {clock}s left"], .exit 0)
    | .error fault => (adjust, .failed (.arithmetic fault))

def reportLines (every : Int) (r : Simulation.Report Float) : List String × Ending :=
  let (rows, fault) := tableRows every r.records.length 0 r.records
  match fault with
  | some fault => (tableHeader :: rows, .failed (.arithmetic fault))
  | none =>
    let (last, ending) := closing r
    (tableHeader :: rows ++ last, ending)

def SimulateOrder.run (o : SimulateOrder) : List String × Ending :=
  match o.plan with
  | .error fault => ([], .failed (.arithmetic fault))
  | .ok plan =>
    match Simulation.simulate Constants.tuned plan none with
    | .error fault => ([], .failed fault)
    | .ok report => reportLines o.every report

def simulateCommand (args : List String) : List String × Ending :=
  match simulateSpec.read args with
  | .refused => ([], .exit 2)
  | .help => ([], .exit 0)
  | .given positionals flags => (SimulateOrder.of positionals flags).run

example : tableHeader = "  ply      clock   optimum   maximum" := by decide +kernel

end Zeitnot.Cli
