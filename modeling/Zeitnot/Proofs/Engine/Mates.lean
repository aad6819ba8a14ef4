import Zeitnot.Proofs.Engine.ChessRules
import Zeitnot.Proofs.Engine.Thinking
import Zeitnot.Proofs.Search.CarryingOn
set_option autoImplicit false

namespace Zeitnot

/-- Black has one move, from h8 to g8, after which the pawn on e7 gives mate by a promotion. -/
def Chess.Game.backRank : Chess.Game := .start
  { board := ((Board.empty.put ⟨52, by decide⟩ (some ⟨.white, .pawn, false⟩)).put ⟨46, by decide⟩
      (some ⟨.white, .king, false⟩)).put ⟨63, by decide⟩ (some ⟨.black, .king, false⟩)
    turn := .black
    rights := .both .none
    enPassant := none
    halfmoves := 0
    fullmove := 1 }

namespace Engine
open Chess Number Search Stateful

theorem matesOutweigh_chessRules {horizon : Int} (h : horizon ≤ 40000) :
    chessRules.MatesOutweigh horizon :=
  fun g => g.position.abs_evaluate_lt_mate h

theorem backRank_searched :
    let limits : Limits := { Limits.unlimited 1000 with depth := 2 }
    let s := Session.fresh Constants.tuned .standard .silent
    let g := Game.backRank
    (∃ s₁, (Session.start limits (.position g.position.ply g.position.turn) none).run.run s =
        (.ok (), s₁)) ∧
      ((⟨64, 4, 1⟩ : Engine).thinkBy g limits (fun _ _ => 1000) .none s).record =
        ⟨some (-mateValue + 2), 2, 11, false⟩ := by
  intro limits s g
  have hturn : (none <|> (Root.position g.position.ply g.position.turn).turn?) = some .black := rfl
  obtain ⟨j, hstart, -⟩ := Session.start_untimed limits
    (.position g.position.ply g.position.turn) hturn rfl s
  exact ⟨⟨_, hstart⟩, by decide +kernel⟩

variable {S : Type} [Scalar S]

/-- The value of every depth that a search completes tells exactly of the mates within that depth:
that of the last one, which is on record, and those that were told of before it. -/
theorem value_tells_mates {e : Engine} {g : Game} {limits : Limits} {clock : Clock}
    (last : SearchRecord) {s s₁ : Session S} (he : e.maxDepth ≤ 40000) (hg : g.legalMoves ≠ [])
    (hstart : (Session.start limits (.position g.position.ply g.position.turn) none).run.run s =
      (.ok (), s₁)) :
    ∃ r, search chessRules (e.watch s₁ (s₁.limits.getD limits) clock)
        (e.goal s₁ (s₁.limits.getD limits) clock) g = some r ∧
      (e.thinkBy g limits clock last s).record = ⟨r.value, r.depth, r.nodes, r.interrupted⟩ ∧
      (0 < r.depth → (r.depth : Int) ≤ e.maxDepth →
        ∃ v, r.value = some v ∧ chessRules.MateExact e.maxDepth g r.depth v) ∧
      (∀ d, 0 < d → d ≤ r.depth → ∃ n m v, .completed d n m v ∈ r.steps) ∧
      ∀ (d n : Nat) (m : Move) (v : Int), .completed d n m v ∈ r.steps → (d : Int) ≤ e.maxDepth →
        chessRules.MateExact e.maxDepth g d v := by
  cases hr : search chessRules (e.watch s₁ (s₁.limits.getD limits) clock)
      (e.goal s₁ (s₁.limits.getD limits) clock) g with
  | none => exact absurd (search_eq_none_iff.1 hr) (mt moves_chessRules_eq_nil.1 hg)
  | some r =>
    have hsettled := search_settled chessRules_decided (fun d m _ => moderate_moveValue g d m) hr
    have hexact : ∀ {d : Nat} {m : Move} {v : Int}, 0 < d → (d : Int) ≤ e.maxDepth →
        IsBest (moveValue chessRules g d) (chessRules.moves g) m v →
        chessRules.MateExact e.maxDepth g d v := fun hpos hmax hbest =>
      hbest.mateExact chessRules_decided (matesOutweigh_chessRules he) hpos hmax
    refine ⟨r, rfl, (thinkBy_of_started last hstart hr).1, fun hpos hmax => ?_, hsettled.told_of_le,
      fun d n m v htold hmax => ?_⟩
    · obtain ⟨v, hvalue, hbest⟩ := hsettled.best hpos
      exact ⟨v, hvalue, hexact hpos hmax hbest⟩
    · obtain ⟨hpos, -, hbest⟩ := hsettled.of_told d n m v htold
      exact hexact hpos hmax hbest

theorem value_tells_backRank_mate :
    let e : Engine := ⟨64, 4, 1⟩
    let limits : Limits := { Limits.unlimited 1000 with depth := 2 }
    let s := Session.fresh Constants.tuned .standard .silent
    e.maxDepth ≤ 40000 ∧ Game.backRank.legalMoves ≠ [] ∧
      (e.thinkBy .backRank limits (fun _ _ => 1000) .none s).record.value =
        some (-mateValue + 2) ∧
      chessRules.LosesToMate 2 .backRank ∧
      IsGreatest {k | ∃ m ∈ chessRules.moves .backRank, chessRules.LastsFor .backRank m k} 2 := by
  intro e limits s
  have he : e.maxDepth ≤ 40000 := by decide
  have hg : Game.backRank.legalMoves ≠ [] := by decide +kernel
  obtain ⟨⟨s₁, hstart⟩, hfound⟩ := backRank_searched
  obtain ⟨r, -, hrecord, hexact, -⟩ := value_tells_mates (e := e) .none he hg hstart
  have hend : (⟨r.value, r.depth, r.nodes, r.interrupted⟩ : SearchRecord) =
      ⟨some (-mateValue + 2), 2, 11, false⟩ := hrecord.symm.trans hfound
  rw [SearchRecord.mk.injEq] at hend
  obtain ⟨hvalue, hdepth, -⟩ := hend
  rw [hdepth, hvalue] at hexact
  obtain ⟨v, hv, hmate⟩ := hexact Nat.two_pos (by decide)
  obtain rfl : -mateValue + 2 = v := Option.some.inj hv
  obtain ⟨hloses, hgreatest⟩ := (hmate.loses 2).1 ⟨rfl, le_rfl⟩
  exact ⟨he, hg, congrArg SearchRecord.value hfound, hloses, hgreatest⟩

example : chessRules.LosesToMate 2 .backRank ∧ ¬ chessRules.LosesToMate 1 .backRank := by
  decide +kernel

/-- A search that ends at the value of a mate would have kept the mate and its move, had it carried
on without stopping, at every depth up to the engine's greatest. -/
theorem mate_kept_in_carrying_on {e : Engine} {g : Game} {limits : Limits} {clock : Clock}
    {last : SearchRecord} {s s₁ : Session S} {v : Int} (he : e.maxDepth ≤ 40000)
    (hstart : (Session.start limits (.position g.position.ply g.position.turn) none).run.run s =
      (.ok (), s₁))
    (hvalue : (e.thinkBy g limits clock last s).record.value = some v)
    (hmate : mateValue - e.maxDepth ≤ |v|) :
    ∃ r, search chessRules (e.watch s₁ (s₁.limits.getD limits) clock)
        (e.goal s₁ (s₁.limits.getD limits) clock) g = some r ∧
      (e.thinkBy g limits clock last s).record = ⟨some v, r.depth, r.nodes, r.interrupted⟩ ∧
      (∀ move, (e.thinkBy g limits clock last s).move = .ok move → move = some r.best) ∧
      ∀ {watch : Watch} {goal : Goal}, watch.Patient → goal.Unreachable →
        ∀ depth : Nat, r.depth ≤ depth → (depth : Int) ≤ e.maxDepth →
        let further := (deepenOn chessRules Game.pop watch goal (depth - r.depth) r g).1
        further.depth = depth ∧ further.value = some v ∧ further.best = r.best := by
  have hrecord := thinkBy_record e clock last hstart
  cases hr : search chessRules (e.watch s₁ (s₁.limits.getD limits) clock)
      (e.goal s₁ (s₁.limits.getD limits) clock) g with
  | none =>
    rw [hrecord, hr] at hvalue
    cases hvalue
  | some r =>
    simp only [hr] at hrecord
    rw [hrecord] at hvalue
    have hv : r.value = some v := hvalue
    refine ⟨r, rfl, hv ▸ hrecord, fun move hmove => ?_,
      fun {watch goal} hw hgoal depth hle hmax => ?_⟩
    · obtain ⟨s₂, j, hstart', -, hsearch⟩ := thinkBy_ok hmove
      rw [hstart] at hstart'
      cases hstart'
      simp only [hr] at hsearch
      exact hsearch.2.1
    · have hmoderate := fun d m (_ : m ∈ chessRules.moves g) => moderate_moveValue g d m
      have hmated : r.Mated chessRules g v := search_mated chessRules_decided
        (matesOutweigh_chessRules he) hmoderate hr hv hmate (by omega)
      obtain ⟨hkept, hdepth, hbest⟩ := hmated.carry_on chessRules_decided
        (matesOutweigh_chessRules he) hmoderate hw hgoal (depth - r.depth) (by omega)
      rw [deepenOn_chess]
      exact ⟨by omega, hkept.value_eq, hbest⟩

theorem backRank_mate_kept :
    let e : Engine := ⟨64, 4, 1⟩
    let limits : Limits := { Limits.unlimited 1000 with depth := 2 }
    let s := Session.fresh Constants.tuned .standard .silent
    e.maxDepth ≤ 40000 ∧ mateValue - e.maxDepth ≤ |-mateValue + 2| ∧
      ∃ r, (e.thinkBy .backRank limits (fun _ _ => 1000) .none s).record =
          ⟨some (-mateValue + 2), r.depth, r.nodes, r.interrupted⟩ ∧ r.depth = 2 ∧
        let further := (deepenOn chessRules Game.pop ⟨1, fun _ => false⟩
          ⟨-1, 0, fun _ => false⟩ 1 r .backRank).1
        further.depth = 3 ∧ further.value = some (-mateValue + 2) ∧ further.best = r.best := by
  intro e limits s
  have he : e.maxDepth ≤ 40000 := by decide
  have hmate : mateValue - e.maxDepth ≤ |-mateValue + 2| := by decide
  obtain ⟨⟨s₁, hstart⟩, hfound⟩ := backRank_searched
  obtain ⟨r, -, hrecord, -, hkept⟩ :=
    mate_kept_in_carrying_on he hstart (congrArg SearchRecord.value hfound) hmate
  have hdepth : r.depth = 2 := congrArg SearchRecord.depth (hrecord.symm.trans hfound)
  have hpatient : Watch.Patient ⟨1, fun _ => false⟩ :=
    fun _ => Watch.stopsAt_of_not_expired Int.one_ne_zero rfl
  have hgoal : Goal.Unreachable ⟨-1, 0, fun _ => false⟩ := ⟨by decide, fun _ => rfl⟩
  have hfurther := hkept hpatient hgoal 3 (by omega) (by decide)
  rw [show 3 - r.depth = 1 by omega] at hfurther
  exact ⟨he, hmate, r, hrecord, hdepth, hfurther⟩

end Engine
end Zeitnot
