import Zeitnot.Proofs.Engine.Thinking
import Zeitnot.Proofs.Engine.ChessRules
import Zeitnot.Proofs.Search.Levels
set_option autoImplicit false

namespace Zeitnot.Engine
open Chess Number Search Stateful

/-- A search within a window locates the unpruned value of the position, whatever the order of the
legal moves; and it is cut off exactly by a stop of its watch at some level below, which is passed
up through every level in between. -/
theorem window_locates_value {order : Game → List Move}
    (horder : ∀ g, (order g).Perm g.legalMoves) (watch : Watch) (c : Call Game) :
    let rules := chessRules.inOrder order
    (∀ {v : Int} {d : Desk Game}, c.alpha < c.beta →
      c.walked rules Game.pop watch = (.ok (some v), d) →
      Locates c.alpha c.beta v (negamax chessRules c.depth c.ply c.board)) ∧
    (∀ {inner : Call Game} {d : Desk Game}, c.Reaches rules watch inner →
      inner.walked rules Game.pop watch = (.ok none, d) →
      c.walked rules Game.pop watch = (.ok none, ⟨c.board, d.nodes⟩)) ∧
    (∀ {d : Desk Game}, c.walked rules Game.pop watch = (.ok none, d) →
      ∃ inner, c.Reaches rules watch inner ∧ watch.stopsAt (inner.nodes + 1) = .ok true ∧
        d.nodes = inner.nodes + 1) := by
  intro rules
  have hundo : ∀ g m, Game.pop (rules.play g m) = g := Game.pop_push
  have hmoves : ∀ g m, m ∈ order g ↔ m ∈ chessRules.moves g := fun g m =>
    (horder g).mem_iff.trans mem_moves_chessRules.symm
  have hfollows : ∀ c : Call Game,
      Follows c.board (c.walked rules Game.pop watch) (c.outcome rules watch) :=
    Call.walked_follows hundo
  refine ⟨fun {v d} hwindow h => ?_, fun {inner d} hreaches h => ?_, fun {d} h => ?_⟩
  · have hfound := hfollows c
    rw [h] at hfound
    rw [← negamax_inOrder hmoves]
    exact alphaBeta_locates (chessRules_decided.inOrder hmoves) hwindow hfound.of_found.2
  · have hinner := hfollows inner
    rw [h] at hinner
    have hcut := hreaches.cutOff hinner.of_cutOff.2
    have hc := hfollows c
    rw [hcut] at hc
    exact hc.eq_of_cutOff
  · have hc := hfollows c
    rw [h] at hc
    exact Call.exists_stop hc.of_cutOff.2

theorem window_locates_value_from_last :
    let order : Game → List Move := fun g => g.legalMoves.reverse
    let rules := chessRules.inOrder order
    let c : Call Game := ⟨1, 0, 50, 150, .cornered, 0⟩
    (∀ g, (order g).Perm g.legalMoves) ∧ c.alpha < c.beta ∧
      (∃ v d, c.walked rules Game.pop ⟨1, fun _ => false⟩ = (.ok (some v), d) ∧
        v ≤ c.alpha ∧ negamax chessRules 1 0 .cornered ≤ c.alpha) ∧
      ∃ d inner, c.walked rules Game.pop ⟨2, fun _ => true⟩ = (.ok none, d) ∧
        c.Reaches rules ⟨2, fun _ => true⟩ inner ∧ inner.nodes = 1 := by
  intro order rules c
  have horder : ∀ g, (order g).Perm g.legalMoves := fun g => g.legalMoves.reverse_perm
  have hfound : (c.walked rules Game.pop ⟨1, fun _ => false⟩).1 = .ok (some 50) := by
    decide +kernel
  have hwalked : c.walked rules Game.pop ⟨1, fun _ => false⟩ =
    (.ok (some 50), (c.walked rules Game.pop ⟨1, fun _ => false⟩).2) := Prod.ext hfound rfl
  have hlocates := (window_locates_value horder ⟨1, fun _ => false⟩ c).1 (by decide) hwalked
  have hcut : (c.walked rules Game.pop ⟨2, fun _ => true⟩).1 = .ok none ∧
      (c.walked rules Game.pop ⟨2, fun _ => true⟩).2.nodes = 2 := by decide +kernel
  have hstopped : c.walked rules Game.pop ⟨2, fun _ => true⟩ =
    (.ok none, (c.walked rules Game.pop ⟨2, fun _ => true⟩).2) := Prod.ext hcut.1 rfl
  obtain ⟨inner, hreaches, -, hnodes⟩ :=
    (window_locates_value horder ⟨2, fun _ => true⟩ c).2.2 hstopped
  refine ⟨horder, by decide, ⟨50, _, hwalked, by decide, hlocates.le_alpha_iff.1 (by decide)⟩,
    _, inner, hstopped, hreaches, ?_⟩
  omega

end Zeitnot.Engine
