import Zeitnot.Proofs.Chess.Distinct
import Zeitnot.Proofs.Chess.MoveOrder
import Zeitnot.Proofs.Engine.ChessRules
import Zeitnot.Proofs.Engine.Thinking
import Zeitnot.Proofs.Search.RootMoves
set_option autoImplicit false

namespace Zeitnot

/-- White's pawn on a7 promotes, or the king goes from h1 to g1; the black king is on h3. -/
def Chess.Game.promoting : Chess.Game := .start
  { board := ((Board.empty.put ⟨7, by decide⟩ (some ⟨.white, .king, false⟩)).put ⟨48, by decide⟩
      (some ⟨.white, .pawn, false⟩)).put ⟨23, by decide⟩ (some ⟨.black, .king, false⟩)
    turn := .white
    rights := .both .none
    enPassant := none
    halfmoves := 0
    fullmove := 1 }

namespace Engine
open Chess Number Search

theorem nodup_moves_chessRules {g : Game} (hg : g.position.RooksAtHome) :
    (chessRules.moves g).Nodup :=
  (g.position.order_perm g.legalMoves).nodup_iff.2 (Position.nodup_legalMoves hg)

theorem perm_legalMoves {g : Game} {r : Search.Progress Move} (h : r.KeepsMoves chessRules g) :
    r.order.Perm g.legalMoves := h.perm.trans (g.position.order_perm g.legalMoves)

/-- Any moves of any position are tried in the order of what they capture, the most valuable first.
The moves of the root of a search are the legal moves at its end and before each of its depths, and
a depth looks at each of them at most once, and at all of them if it is completed. No legal move is
listed twice where the rooks that may castle are at home, as they are in every game. -/
theorem root_moves_kept (g : Game) (watch : Watch) (goal : Goal) :
    (∀ (p : Position) (ms : List Move), p.SortedByValue ms (p.order ms)) ∧
    (∀ (p : Position) (m : Move), p.ValuedByVictim m) ∧
    (∀ m ∈ g.legalMoves, g.position.isOwn m.target = false →
      (g.position.isCapture m = true ↔ (g.position.victim? m).isSome)) ∧
    (g.position.RooksAtHome → g.legalMoves.Nodup ∧
      ∀ m ∈ g.legalMoves, g.position.isOwn m.target = true → g.position.isCastling m = true) ∧
    (∀ r, (searchOn chessRules Game.pop watch goal g).1 = some r → r.order.Perm g.legalMoves) ∧
    ∀ r, Reached chessRules watch goal g r →
      r.order.Perm g.legalMoves ∧
      (r.depth ≤ goal.depthLimit.toNat → (searchOn chessRules Game.pop watch goal g).1 =
        some (deepen chessRules watch goal g (goal.depthLimit.toNat - r.depth) r)) ∧
      ∃ looked, r.LooksOnce chessRules watch g looked ∧
        (g.position.RooksAtHome → looked.Nodup) := by
  obtain ⟨game, hgame⟩ := searchOn_chess watch goal g
  refine ⟨Position.order_sortedByValue, Position.valuedByVictim, fun m hm => ?_,
    fun hg => ⟨Position.nodup_legalMoves hg, fun m hm => ?_⟩, fun r hr => ?_, fun r hr => ?_⟩
  · exact Position.isCapture_iff_of_mem_legalMoves hm
  · exact Position.isCastling_of_isOwn hg hm
  · rw [hgame] at hr
    exact perm_legalMoves (search_keepsMoves hr)
  · refine ⟨perm_legalMoves hr.keepsMoves, fun hle => ?_, ?_⟩
    · rw [hgame]
      exact hr.search_eq hle
    · obtain ⟨looked, hlooks⟩ := hr.keepsMoves.exists_looksOnce watch
      exact ⟨looked, hlooks, fun hg => hlooks.nodup hr.keepsMoves (nodup_moves_chessRules hg)⟩

theorem root_moves_kept_promoting :
    let g := Game.promoting
    let watch : Watch := ⟨1024, fun _ => false⟩
    let goal : Goal := ⟨64, 2, fun _ => false⟩
    ∃ r, Reached chessRules watch goal g r ∧ r.depth = 1 ∧ r.nodes = 5 ∧
      (chessRules.moves g).head? ≠ some r.best ∧ r.order.head? = some r.best ∧
      r.order.Perm g.legalMoves ∧ r.order.length = 5 ∧
      ∃ looked, r.LooksOnce chessRules watch g looked ∧ looked.Nodup := by
  intro g watch goal
  have hg : g.position.RooksAtHome := by
    intro side s hs
    cases side <;> cases hs
  have hmoves : chessRules.moves g = [⟨7, 6, none⟩, ⟨48, 56, some .queen⟩, ⟨48, 56, some .rook⟩,
      ⟨48, 56, some .bishop⟩, ⟨48, 56, some .knight⟩] := by decide +kernel
  have hfound : searchRoot chessRules watch g 1 [⟨7, 6, none⟩, ⟨48, 56, some .queen⟩,
      ⟨48, 56, some .rook⟩, ⟨48, 56, some .bishop⟩, ⟨48, 56, some .knight⟩] 0 =
      (.found (900, some ⟨48, 56, some .queen⟩), 5) := by decide +kernel
  have hfirst : Reached chessRules watch goal g _ := .start hmoves
  have hnext := hfirst.next hfound ⟨by decide, rfl⟩
  obtain ⟨-, -, -, -, -, hkept⟩ := root_moves_kept g watch goal
  obtain ⟨hperm, -, looked, hlooks, hnodup⟩ := hkept _ hnext
  exact ⟨_, hnext, rfl, rfl, by rw [hmoves]; decide, rfl, hperm, by decide, looked, hlooks,
    hnodup hg⟩

end Engine
end Zeitnot
