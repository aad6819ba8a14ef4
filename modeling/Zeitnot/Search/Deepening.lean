import Zeitnot.Search.AlphaBeta
set_option autoImplicit false

namespace Zeitnot.Search
open Number

/-- When no further depth is started. -/
structure Goal where
  /-- Values this close to a mate end the search. -/
  maxDepth : Int
  depthLimit : Int
  /-- Whether enough time is used after so many nodes. -/
  satisfied : Nat → Bool

inductive Step (M : Type)
  | completed (depth nodes : Nat) (move : M) (value : Int)
  | satisfied (depth nodes : Nat)
  | cutOff (depth nodes : Nat)
  deriving DecidableEq, Repr

structure Progress (M : Type) where
  best : M
  value : Option Int
  /-- The last depth that was completed. -/
  depth : Nat
  nodes : Nat
  interrupted : Bool
  /-- The moves of the root in the order in which the next depth tries them. -/
  order : List M
  steps : List (Step M)
  fault : Option Fault
  deriving DecidableEq, Repr

def Progress.start {M : Type} (best : M) (order : List M) : Progress M :=
  ⟨best, none, 0, 0, false, order, [], none⟩

def toFront {M : Type} [BEq M] (m : M) (ms : List M) : List M := m :: ms.erase m

theorem toFront_perm {M : Type} [BEq M] [LawfulBEq M] {m : M} {ms : List M} (h : m ∈ ms) :
    (toFront m ms).Perm ms := (List.perm_cons_erase h).symm

section
variable {P M : Type} [BEq M] (rules : Rules P M) (watch : Watch) (goal : Goal)

def Progress.complete (r : Progress M) (value : Int) (move : M) (nodes : Nat) : Progress M :=
  { r with
    best := move
    value := some value
    depth := r.depth + 1
    nodes
    order := toFront move r.order
    steps := r.steps ++ [.completed (r.depth + 1) nodes move value] }

@[simp] theorem Progress.depth_complete (r : Progress M) (value : Int) (move : M)
    (nodes : Nat) : (r.complete value move nodes).depth = r.depth + 1 := rfl

/-- Searches at most `remaining` further depths. -/
def deepen (root : P) : (remaining : Nat) → Progress M → Progress M
  | 0, r => r
  | remaining + 1, r =>
    let depth := r.depth + 1
    match searchRoot rules watch root depth r.order r.nodes with
    | (.cutOff, nodes) =>
      { r with nodes, interrupted := true, steps := r.steps ++ [.cutOff depth nodes] }
    | (.failed fault, nodes) => { r with nodes, fault := some fault }
    | (.found (value, move), nodes) =>
      let r := r.complete value (move.getD r.best) nodes
      if mateValue - goal.maxDepth ≤ value.natAbs then r
      else if goal.satisfied nodes then { r with steps := r.steps ++ [.satisfied depth nodes] }
      else deepen root remaining r

section
variable {rules watch goal} {root : P} {remaining : Nat} {r : Progress M} {nodes : Nat}

theorem deepen_cutOff
    (h : searchRoot rules watch root (r.depth + 1) r.order r.nodes = (.cutOff, nodes)) :
    deepen rules watch goal root (remaining + 1) r =
      { r with
        nodes, interrupted := true, steps := r.steps ++ [.cutOff (r.depth + 1) nodes] } := by
  simp only [deepen, h]

theorem deepen_failed {fault : Fault}
    (h : searchRoot rules watch root (r.depth + 1) r.order r.nodes = (.failed fault, nodes)) :
    deepen rules watch goal root (remaining + 1) r = { r with nodes, fault := some fault } := by
  simp only [deepen, h]

theorem deepen_found {value : Int} {move : Option M}
    (h : searchRoot rules watch root (r.depth + 1) r.order r.nodes =
      (.found (value, move), nodes)) :
    deepen rules watch goal root (remaining + 1) r =
      let r := r.complete value (move.getD r.best) nodes
      if mateValue - goal.maxDepth ≤ value.natAbs then r
      else if goal.satisfied nodes then
        { r with steps := r.steps ++ [.satisfied r.depth nodes] }
      else deepen rules watch goal root remaining r := by
  simp only [deepen, h, Progress.depth_complete]

end

def search (root : P) : Option (Progress M) :=
  match rules.moves root with
  | [] => none
  | m :: ms => some (deepen rules watch goal root goal.depthLimit.toNat (.start m (m :: ms)))

section
variable {rules watch goal} {root : P} {r : Progress M}

theorem search_eq_none_iff : search rules watch goal root = none ↔ rules.moves root = [] := by
  unfold search
  split <;> simp_all

theorem exists_of_search (h : search rules watch goal root = some r) :
    ∃ m ms, rules.moves root = m :: ms ∧
      r = deepen rules watch goal root goal.depthLimit.toNat (.start m (m :: ms)) := by
  unfold search at h
  split at h
  · cases h
  · rename_i m ms hms
    exact ⟨m, ms, hms, (Option.some.inj h).symm⟩

end
end
end Zeitnot.Search
