import Zeitnot.Session
/-!
Clock simulation: a whole game against the allocator, in which every move spends exactly the
optimum and the overhead and then gains the increment.
-/
set_option autoImplicit false

namespace Zeitnot
open Number Config

namespace Simulation

structure Plan where
  initial : Int
  increment : Int
  moves : Int
  /-- Moves of a time control period, after which the initial time is added; zero for none. -/
  movesToGo : Int
  overhead : Int
  startPly : Int
  deriving DecidableEq, Repr

structure Record where
  ply : Int
  clockBefore : Int
  optimum : Int
  maximum : Int
  deriving DecidableEq, Repr

structure Report (S : Type) where
  records : List Record
  flagged : Bool
  finalClock : Int
  adjust : S
  deriving Repr

def Plan.side (p : Plan) : Side := if Int.fmod p.startPly 2 = 0 then .white else .black

def Plan.movesLeft (p : Plan) (k : Nat) : Int :=
  if p.movesToGo = 0 then 0 else p.movesToGo - Int.fmod k p.movesToGo

variable {S : Type} [Scalar S]

def play (p : Plan) : (remaining k : Nat) → (clock : Int) → Session S →
    Except SessionFault (Report S)
  | 0, _, clock, s => .ok ⟨[], false, clock, s.adjust⟩
  | remaining + 1, k, clock, s =>
    let ply := p.startPly + 2 * k
    let left := p.movesLeft k
    let limits := Limits.forSide p.side clock p.increment left 0
    match (Session.start limits (.count ply) (some p.side)).run.run s with
    | (.error fault, _) => .error fault
    | (.ok _, s) =>
      let record : Record := ⟨ply, clock, s.allocator.optimum, s.allocator.maximum⟩
      let after := clock - (s.allocator.optimum + p.overhead)
      if after ≤ 0 then .ok ⟨[record], true, after, s.adjust⟩
      else
        let next := after + p.increment + if p.movesToGo ≠ 0 ∧ left = 1 then p.initial else 0
        (play p remaining (k + 1) next s).map fun r => { r with records := record :: r.records }

def Plan.options (p : Plan) : Except OptionFault Options :=
  Options.standard.set "Move Overhead" (.int p.overhead)

def simulate (c : Constants S) (p : Plan) (options : Option Options) :
    Except SessionFault (Report S) := do
  let options ← match options with
    | some o => pure o
    | none => p.options.mapError .option
  play p p.moves.toNat 0 p.initial (Session.fresh c options .silent).newGame

end Simulation
end Zeitnot
