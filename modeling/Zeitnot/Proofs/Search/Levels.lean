import Mathlib.Logic.Relation
import Zeitnot.Proofs.Search.Walk
/-!
The levels of a search: every call looks at its watch, and then makes a call for each move that it
tries. A call is cut off exactly if one of the calls under it meets a stop of the watch, and then
all the calls in between are cut off at the same node.
-/
set_option autoImplicit false

namespace Zeitnot.Search
open Number

/-- A call of the search: a board to be looked at within a window, after some nodes. -/
structure Call (P : Type) where
  depth : Nat
  ply : Nat
  alpha : Int
  beta : Int
  board : P
  nodes : Nat
  deriving DecidableEq, Repr

section
variable {P M : Type} (rules : Rules P M) (undo : P → P) (watch : Watch)

/-- What a call comes to, with a new board for every move. -/
def Call.outcome (c : Call P) : Outcome Int × Nat :=
  alphaBeta rules watch c.depth c.ply c.alpha c.beta c.board c.nodes

def Call.walked (c : Call P) : Except Fault (Option Int) × Desk P :=
  (walk rules undo watch c.depth c.ply c.alpha c.beta).run.run ⟨c.board, c.nodes⟩

/-- On the way through some moves, the move that is looked at above `alpha` after `nodes`. -/
inductive Tried (inspect : Inspect P) (p : P) (beta : Int) :
    List M → Int → Nat → (m : M) → (alpha : Int) → (nodes : Nat) → Prop
  | first (m : M) (ms : List M) (alpha : Int) (nodes : Nat) :
    Tried inspect p beta (m :: ms) alpha nodes m alpha nodes
  | next {m m' : M} {ms : List M} {alpha alpha' v : Int} {nodes k nodes' : Nat}
      (found : inspect (-beta) (-alpha) (rules.play p m) nodes = (.found v, k))
      (below : ¬ beta ≤ -v)
      (rest : Tried inspect p beta ms (if alpha < -v then -v else alpha) k m' alpha' nodes') :
    Tried inspect p beta (m :: ms) alpha nodes m' alpha' nodes'

inductive Call.Makes : Call P → Call P → Prop
  | mk {depth ply nodes nodes' : Nat} {alpha beta alpha' : Int} {board : P} {m : M}
      (clear : watch.stopsAt (nodes + 1) = .ok false)
      (goesOn : rules.terminal? board ply = none)
      (tried : Tried rules (alphaBeta rules watch depth (ply + 1)) board beta (rules.moves board)
        alpha (nodes + 1) m alpha' nodes') :
    Makes ⟨depth + 1, ply, alpha, beta, board, nodes⟩
      ⟨depth, ply + 1, -beta, -alpha', rules.play board m, nodes'⟩

abbrev Call.Reaches : Call P → Call P → Prop := Relation.ReflTransGen (Call.Makes rules watch)

end

section
variable {P M : Type} {rules : Rules P M} {undo : P → P} {watch : Watch} {c : Call P} {k : Nat}

theorem Follows.of_found {α : Type} {board : P} {a : α} {d : Desk P} {o : Outcome α × Nat}
    (h : Follows board (.ok (some a), d) o) : d.board = board ∧ o = (.found a, d.nodes) := by
  cases h with
  | found a nodes => exact ⟨rfl, rfl⟩

theorem Follows.of_cutOff {α : Type} {board : P} {d : Desk P} {o : Outcome α × Nat}
    (h : Follows board (.ok none, d) o) : d.board = board ∧ o = (.cutOff, d.nodes) := by
  cases h with
  | cutOff nodes => exact ⟨rfl, rfl⟩

theorem Follows.eq_of_cutOff {α : Type} {board : P} {x : Except Fault (Option α) × Desk P}
    (h : Follows board x (.cutOff, k)) : x = (.ok none, ⟨board, k⟩) := by
  cases h with
  | cutOff nodes => rfl

theorem Call.walked_follows (hundo : ∀ p m, undo (rules.play p m) = p) (c : Call P) :
    Follows c.board (c.walked rules undo watch) (c.outcome rules watch) :=
  walk_follows hundo c.depth c.ply c.alpha c.beta c.board c.nodes

theorem Tried.cutOff {inspect : Inspect P} {p : P} {beta alpha alpha' : Int} {ms : List M} {m : M}
    {n n' : Nat} (h : Tried rules inspect p beta ms alpha n m alpha' n')
    (hc : inspect (-beta) (-alpha') (rules.play p m) n' = (.cutOff, k)) :
    tryMoves rules inspect p beta ms alpha n = (.cutOff, k) := by
  induction h with
  | first m ms alpha n => simp only [tryMoves, hc]
  | next found below rest ih =>
    simp only [tryMoves, found, if_neg below]
    exact ih hc

theorem exists_tried {inspect : Inspect P} {p : P} {beta alpha : Int} {ms : List M} {n : Nat}
    (h : tryMoves rules inspect p beta ms alpha n = (.cutOff, k)) :
    ∃ m alpha' n', Tried rules inspect p beta ms alpha n m alpha' n' ∧
      inspect (-beta) (-alpha') (rules.play p m) n' = (.cutOff, k) := by
  induction ms generalizing alpha n with
  | nil => simp [tryMoves] at h
  | cons m ms ih =>
    simp only [tryMoves] at h
    split at h
    · rename_i v j found
      split at h
      · simp at h
      · rename_i below
        obtain ⟨m', alpha', n', ht, hc⟩ := ih h
        exact ⟨m', alpha', n', .next found below ht, hc⟩
    · exact ⟨m, alpha, n, .first m ms alpha n, h⟩

theorem Call.Makes.cutOff {c' : Call P} (h : Call.Makes rules watch c c')
    (hc : c'.outcome rules watch = (.cutOff, k)) : c.outcome rules watch = (.cutOff, k) := by
  cases h with
  | mk clear goesOn tried =>
    have hmoves := tried.cutOff hc
    unfold Call.outcome alphaBeta
    simp only [clear, goesOn, hmoves]

theorem Call.stops_or_makes (h : c.outcome rules watch = (.cutOff, k)) :
    (watch.stopsAt (c.nodes + 1) = .ok true ∧ k = c.nodes + 1) ∨
      ∃ c', Call.Makes rules watch c c' ∧ c'.depth < c.depth ∧
        c'.outcome rules watch = (.cutOff, k) := by
  obtain ⟨depth, ply, alpha, beta, board, nodes⟩ := c
  unfold Call.outcome alphaBeta at h
  split at h <;> rename_i hw
  · simp at h
  · cases h
    exact .inl ⟨hw, rfl⟩
  · split at h <;> rename_i goesOn
    · simp at h
    · cases depth with
      | zero => simp at h
      | succ depth =>
        obtain ⟨m, alpha', n', tried, hc⟩ := exists_tried h
        exact .inr ⟨_, .mk hw goesOn tried, Nat.lt_succ_self depth, hc⟩

/-- A stop is passed up through every level, and the node at which it was met with it. -/
theorem Call.Reaches.cutOff {inner : Call P} (h : Call.Reaches rules watch c inner)
    (hc : inner.outcome rules watch = (.cutOff, k)) : c.outcome rules watch = (.cutOff, k) := by
  induction h using Relation.ReflTransGen.head_induction_on with
  | refl => exact hc
  | head makes _ ih => exact makes.cutOff ih

theorem Call.exists_stop (h : c.outcome rules watch = (.cutOff, k)) :
    ∃ inner, Call.Reaches rules watch c inner ∧ watch.stopsAt (inner.nodes + 1) = .ok true ∧
      k = inner.nodes + 1 := by
  induction hd : c.depth using Nat.strong_induction_on generalizing c with
  | h depth ih =>
    obtain ⟨hw, hk⟩ | ⟨c', makes, hlt, hc⟩ := Call.stops_or_makes h
    · exact ⟨c, .refl, hw, hk⟩
    · obtain ⟨inner, hr, hw, hk⟩ := ih c'.depth (hd ▸ hlt) hc rfl
      exact ⟨inner, .head makes hr, hw, hk⟩

end
end Zeitnot.Search
