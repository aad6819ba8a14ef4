import Zeitnot.Search.Deepening
/-!
The search as it is carried out, on one board: every move that is tried is played on the board and
taken back before the next one. A fault leaves the moves on it that are being looked at. What is
found, and in which order, is the same as in a search that makes a new board for every move.
-/
set_option autoImplicit false

namespace Zeitnot.Search
open Number

structure Desk (P : Type) where
  board : P
  nodes : Nat
  deriving DecidableEq, Repr

abbrev Walk (P α : Type) := ExceptT Fault (StateM (Desk P)) α

section
variable {P M : Type} (rules : Rules P M) (undo : P → P) (watch : Watch)

def trying {α : Type} (m : M) (look : Walk P α) : Walk P α := do
  modify fun d => { d with board := rules.play d.board m }
  let found ← look
  modify fun d => { d with board := undo d.board }
  pure found

/-- Tries moves until one reaches `beta`; gives nothing if it is cut off. -/
def walkMoves (look : (alpha beta : Int) → Walk P (Option Int)) (beta : Int) :
    List M → (alpha : Int) → Walk P (Option Int)
  | [], alpha => pure (some alpha)
  | m :: ms, alpha => do
    match ← trying rules undo m (look (-beta) (-alpha)) with
    | none => pure none
    | some v =>
      if beta ≤ -v then pure (some beta)
      else walkMoves look beta ms (if alpha < -v then -v else alpha)

def walk : (depth : Nat) → (ply : Nat) → (alpha beta : Int) → Walk P (Option Int)
  | depth, ply, alpha, beta => do
    modify fun d => { d with nodes := d.nodes + 1 }
    let d ← get
    if ← watch.stopsAt d.nodes then pure none
    else
      match rules.terminal? d.board ply with
      | some v => pure (some v)
      | none =>
        match depth with
        | 0 => pure (some (rules.evaluate d.board))
        | depth + 1 =>
          walkMoves rules undo (walk depth (ply + 1)) beta (rules.moves d.board) alpha

def walkRootMoves (look : (alpha beta : Int) → Walk P (Option Int)) (best : Option M)
    (alpha : Int) : List M → Walk P (Option (Int × Option M))
  | [] => pure (some (alpha, best))
  | m :: ms => do
    match ← trying rules undo m (look (-(mateValue + 1)) (-alpha)) with
    | none => pure none
    | some v =>
      if best.isNone ∨ alpha < -v then walkRootMoves look (some m) (-v) ms
      else walkRootMoves look best alpha ms

def walkRoot (depth : Nat) (moves : List M) : Walk P (Option (Int × Option M)) :=
  walkRootMoves rules undo (walk rules undo watch (depth - 1) 1) none (-mateValue - 1) moves

end

section
variable {P M : Type} [BEq M] (rules : Rules P M) (undo : P → P) (watch : Watch) (goal : Goal)

def deepenOn : (remaining : Nat) → Progress M → P → Progress M × P
  | 0, r, board => (r, board)
  | remaining + 1, r, board =>
    let depth := r.depth + 1
    match (walkRoot rules undo watch depth r.order).run.run ⟨board, r.nodes⟩ with
    | (.error fault, ⟨board, nodes⟩) => ({ r with nodes, fault := some fault }, board)
    | (.ok none, ⟨board, nodes⟩) =>
      ({ r with nodes, interrupted := true, steps := r.steps ++ [.cutOff depth nodes] }, board)
    | (.ok (some (value, move)), ⟨board, nodes⟩) =>
      let r := r.complete value (move.getD r.best) nodes
      if mateValue - goal.maxDepth ≤ value.natAbs then (r, board)
      else if goal.satisfied nodes then
        ({ r with steps := r.steps ++ [.satisfied depth nodes] }, board)
      else deepenOn remaining r board

def searchOn (board : P) : Option (Progress M) × P :=
  match rules.moves board with
  | [] => (none, board)
  | m :: ms =>
    let (r, board) :=
      deepenOn rules undo watch goal goal.depthLimit.toNat (.start m (m :: ms)) board
    (some r, board)

end
end Zeitnot.Search
