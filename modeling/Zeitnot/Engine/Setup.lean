import Mathlib.Logic.Function.Basic
import Zeitnot.Engine
set_option autoImplicit false

namespace Zeitnot
open Chess Number

variable {S : Type} [Scalar S]

def Engine.opening (g : Game) (limits : Limits) : Command S :=
  .start limits (.position g.position.ply g.position.turn) none

inductive Operation (S : Type)
  | command (now : Int) (c : Command S)
  | search (i : Nat) (g : Game) (limits : Limits) (clock : Engine.Clock)

/-- What comes of an operation, with what becomes of the limits and the game that came with it. -/
inductive Outcome (S : Type)
  | answered (answer : Except SessionFault (Answer S)) (limits : Option Limits)
  | thought (move : Except SessionFault (Option Move)) (record : SearchRecord)
    (limits : Option Limits) (game : Game)

structure Setup (S : Type) where
  session : Session S
  records : Nat → SearchRecord

namespace Setup

def step (engines : Nat → Engine) (x : Setup S) : Operation S → Outcome S × Setup S
  | .command now c =>
    let (answer, session) := x.session.step now c
    (.answered answer (x.session.limitsAfter c), { x with session })
  | .search i g limits clock =>
    let thought := (engines i).thinkBy g limits clock (x.records i) x.session
    (.thought thought.move thought.record (x.session.limitsAfter (Engine.opening g limits))
      thought.game, ⟨thought.session, Function.update x.records i thought.record⟩)

/-- Carries out operations one after another, also after one that has failed. -/
def run (engines : Nat → Engine) (x : Setup S) : List (Operation S) → List (Outcome S) × Setup S
  | [] => ([], x)
  | op :: rest =>
    let (outcome, x) := x.step engines op
    let (outcomes, x) := x.run engines rest
    (outcome :: outcomes, x)

end Setup
end Zeitnot
