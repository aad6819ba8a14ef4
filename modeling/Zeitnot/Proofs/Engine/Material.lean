import Zeitnot.Proofs.Engine.Mates
import Zeitnot.Proofs.Search.Stopping
set_option autoImplicit false

namespace Zeitnot.Engine
open Chess Number Search

theorem goesOn_of_material {goal : Goal} (hgoal : goal.maxDepth ≤ 40000) {p : Position} {v : Int}
    {nodes : Nat} (hv : |v| = |p.evaluate|) (hsat : goal.satisfied nodes = false) :
    goal.GoesOn v nodes := by
  refine ⟨?_, hsat⟩
  rw [← Int.abs_eq_natAbs, hv]
  exact p.abs_evaluate_lt_mate hgoal

/-- Material is what the pieces of the side to move are worth less what those of the other side are:
it changes its sign when the turn is passed, and keeps its value when the pieces change their colour
as well. It is at most that of 64 queens, so that an engine of at most 40000 depths never stops at a
depth of such a value as if it had found a mate. -/
theorem evaluate_evenHanded (p : Position) :
    p.evaluate = p.board.worth p.turn - p.board.worth p.turn.other ∧
      (∀ q : Position, q.board = p.board → q.turn = p.turn.other → q.evaluate = -p.evaluate) ∧
      (∀ q : Position, q.board = p.board.flip → q.turn = p.turn.other →
        q.evaluate = p.evaluate) ∧
      |p.evaluate| ≤ 57600 ∧
      ∀ goal : Goal, goal.maxDepth ≤ 40000 → |p.evaluate| < mateValue - goal.maxDepth ∧
        ∀ (watch : Watch) (g : Game) (r : Search.Progress Move) (remaining : Nat) (v : Int)
          (m? : Option Move) (nodes : Nat), |v| = |p.evaluate| →
          searchRoot chessRules watch g (r.depth + 1) r.order r.nodes = (.found (v, m?), nodes) →
          goal.satisfied nodes = false →
          deepen chessRules watch goal g (remaining + 1) r =
            deepen chessRules watch goal g remaining (r.complete v (m?.getD r.best) nodes) := by
  refine ⟨p.evaluate_eq, fun q hboard hturn => ?_, fun q hboard hturn => ?_, p.abs_evaluate_le,
    fun goal hgoal => ⟨p.abs_evaluate_lt_mate hgoal, fun watch g r remaining v m? nodes hv hf hsat =>
      deepen_of_goesOn remaining hf (goesOn_of_material hgoal hv hsat)⟩⟩
  · rw [q.evaluate_eq, p.evaluate_eq, hboard, hturn, Side.other_other, neg_sub]
  · rw [q.evaluate_eq, p.evaluate_eq, hboard, hturn, Board.worth_flip, Board.worth_flip,
      Side.other_other]

theorem evaluate_backRank :
    let p := Game.backRank.position
    let goal : Goal := ⟨40000, 2, fun _ => false⟩
    let r : Search.Progress Move := .start ⟨63, 62, none⟩ [⟨63, 62, none⟩]
    p.evaluate = -100 ∧ { p with turn := .white }.evaluate = 100 ∧
      { p with board := p.board.flip, turn := .white }.evaluate = -100 ∧
      |p.evaluate| < mateValue - goal.maxDepth ∧
      searchRoot chessRules ⟨1, fun _ => false⟩ .backRank 1 r.order 0 =
        (.found (-100, some ⟨63, 62, none⟩), 1) ∧
      deepen chessRules ⟨1, fun _ => false⟩ goal .backRank 2 r =
        deepen chessRules ⟨1, fun _ => false⟩ goal .backRank 1
          (r.complete (-100) ⟨63, 62, none⟩ 1) := by
  intro p goal r
  have hvalue : p.evaluate = -100 := by decide +kernel
  have hfound : searchRoot chessRules ⟨1, fun _ => false⟩ .backRank 1 r.order 0 =
      (.found (-100, some ⟨63, 62, none⟩), 1) := by decide +kernel
  obtain ⟨-, hpassed, hrecoloured, -, hmates⟩ := evaluate_evenHanded p
  obtain ⟨hbelow, hgoesOn⟩ := hmates goal le_rfl
  have hwhite : { p with turn := .white }.evaluate = -p.evaluate :=
    hpassed { p with turn := .white } rfl rfl
  have hflip : { p with board := p.board.flip, turn := .white }.evaluate = p.evaluate :=
    hrecoloured { p with board := p.board.flip, turn := .white } rfl rfl
  rw [hvalue] at hwhite hflip hgoesOn
  exact ⟨hvalue, hwhite, hflip, hbelow, hfound,
    hgoesOn ⟨1, fun _ => false⟩ .backRank r 1 (-100) (some ⟨63, 62, none⟩) 1 rfl hfound rfl⟩

example : Position.evaluate
    { Game.backRank.position with
      board := ⟨Vector.replicate 64 (some ⟨.black, .queen, false⟩)⟩ } = 57600 := by
  decide +kernel

end Zeitnot.Engine
