import Zeitnot.Search.Rules
set_option autoImplicit false

namespace Zeitnot.Search
open Number

/-- When to stop: at a multiple of `every` nodes at which `expired` holds. -/
structure Watch where
  every : Int
  expired : Nat → Bool

def Watch.stopsAt (w : Watch) (nodes : Nat) : Except Fault Bool :=
  return (← floorMod nodes w.every) == 0 && w.expired nodes

inductive Outcome (α : Type)
  | found (a : α)
  | cutOff
  | failed (fault : Fault)
  deriving DecidableEq, Repr

section
variable {P M : Type} (rules : Rules P M) (watch : Watch)

/-- A search of a position within a window: what it finds, and the nodes counted after it. -/
abbrev Inspect (P : Type) := (alpha beta : Int) → P → (nodes : Nat) → Outcome Int × Nat

/-- Tries moves until one reaches `beta`. Values count for the other side one move later. -/
def tryMoves (inspect : Inspect P) (p : P) (beta : Int) :
    List M → (alpha : Int) → (nodes : Nat) → Outcome Int × Nat
  | [], alpha, nodes => (.found alpha, nodes)
  | m :: ms, alpha, nodes =>
    match inspect (-beta) (-alpha) (rules.play p m) nodes with
    | (.found v, nodes) =>
      if beta ≤ -v then (.found beta, nodes)
      else tryMoves inspect p beta ms (if alpha < -v then -v else alpha) nodes
    | stopped => stopped

def alphaBeta : (depth : Nat) → (ply : Nat) → Inspect P
  | depth, ply, alpha, beta, p, nodes =>
    match watch.stopsAt (nodes + 1) with
    | .error fault => (.failed fault, nodes + 1)
    | .ok true => (.cutOff, nodes + 1)
    | .ok false =>
      match rules.terminal? p ply with
      | some v => (.found v, nodes + 1)
      | none =>
        match depth with
        | 0 => (.found (rules.evaluate p), nodes + 1)
        | depth + 1 =>
          tryMoves rules (alphaBeta depth (ply + 1)) p beta (rules.moves p) alpha (nodes + 1)

/-- Tries the moves of the root. The first move is the best until another has a greater value. -/
def tryRootMoves (inspect : Inspect P) (root : P) (best : Option M) (alpha : Int) :
    List M → (nodes : Nat) → Outcome (Int × Option M) × Nat
  | [], nodes => (.found (alpha, best), nodes)
  | m :: ms, nodes =>
    match inspect (-(mateValue + 1)) (-alpha) (rules.play root m) nodes with
    | (.found v, nodes) =>
      if best.isNone ∨ alpha < -v then tryRootMoves inspect root (some m) (-v) ms nodes
      else tryRootMoves inspect root best alpha ms nodes
    | (.cutOff, nodes) => (.cutOff, nodes)
    | (.failed fault, nodes) => (.failed fault, nodes)

def searchRoot (root : P) (depth : Nat) (moves : List M) (nodes : Nat) :
    Outcome (Int × Option M) × Nat :=
  tryRootMoves rules (alphaBeta rules watch (depth - 1) 1) root none (-mateValue - 1) moves nodes

end
end Zeitnot.Search
