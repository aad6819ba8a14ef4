import Zeitnot.Proofs.Engine.Answer
import Zeitnot.Proofs.Engine.TimeManagement
import Zeitnot.Proofs.Search.Stopping
set_option autoImplicit false

namespace Zeitnot.Engine
open Chess Number Search Stateful

section
variable {S : Type} {s : Session S} {e : Engine} {l : Limits} {clock : Clock} {v : Int} {n : Nat}

theorem optimumReached_eq_true_iff : optimumReached s l clock n = true ↔
    s.hasClock = true ∧ l.infinite = false ∧
      s.allocator.optimum ≤ s.elapsed (clock .optimum n) n := by
  simp [optimumReached, and_assoc]

theorem goesOn_iff : (e.goal s l clock).GoesOn v n ↔ |v| < mateValue - e.maxDepth ∧
    (s.hasClock = true → l.infinite = false →
      s.elapsed (clock .optimum n) n < s.allocator.optimum) := by
  have hsat : (e.goal s l clock).satisfied n = false ↔
      (s.hasClock = true → l.infinite = false →
        s.elapsed (clock .optimum n) n < s.allocator.optimum) := by
    rw [← Bool.not_eq_true, show (e.goal s l clock).satisfied = optimumReached s l clock from rfl,
      optimumReached_eq_true_iff, not_and, ← not_le]
    exact forall_congr' fun _ => not_and
  rw [Int.abs_eq_natAbs, ← hsat]
  exact ⟨fun h => ⟨h.no_mate, h.not_satisfied⟩, fun h => ⟨h.1, h.2⟩⟩

end

variable {S : Type} [Scalar S]

/-- Deepening never goes past the depth limit. Where it ends below the limit without being cut off,
the last depth has the value of a mate, or the optimum is used up at its end; at no depth before
was either the case, and not at the last one either if another was started. -/
theorem stops_for_reason {e : Engine} {g : Game} {limits : Limits} {clock : Clock}
    {last : SearchRecord} {s : Session S} {move : Option Move} (hg : g.legalMoves ≠ [])
    (h : (e.thinkBy g limits clock last s).move = .ok move) :
    let record := (e.thinkBy g limits clock last s).record
    ∃ s₁ r, (Session.start limits (.position g.position.ply g.position.turn) none).run.run s =
        (.ok (), s₁) ∧
      search chessRules (e.watch s₁ (s₁.limits.getD limits) clock)
        (e.goal s₁ (s₁.limits.getD limits) clock) g = some r ∧
      record = ⟨r.value, r.depth, r.nodes, r.interrupted⟩ ∧
      (record.depth : Int) ≤ max 0 (e.depthLimit (s₁.limits.getD limits)) ∧
      (record.interrupted = false → record.depth < e.depthLimit (s₁.limits.getD limits) →
        ∃ m v, record.value = some v ∧ .completed record.depth record.nodes m v ∈ r.steps ∧
          (mateValue - e.maxDepth ≤ |v| ∨ s₁.hasClock = true ∧ limits.infinite = false ∧
            s₁.allocator.optimum ≤ s₁.elapsed (clock .optimum record.nodes) record.nodes)) ∧
      (∀ d, 0 < d → d ≤ record.depth → ∃ n m v, .completed d n m v ∈ r.steps) ∧
      ∀ d n m v, .completed d n m v ∈ r.steps → v = rootValue chessRules g d ∧
        (d < record.depth ∨ record.interrupted = true → |v| < mateValue - e.maxDepth ∧
          (s₁.hasClock = true → limits.infinite = false →
            s₁.elapsed (clock .optimum n) n < s₁.allocator.optimum)) := by
  obtain ⟨s₁, j, hstart, -, hsearch⟩ := thinkBy_ok h
  obtain ⟨us, adjust', limits', a, j', -, hs₁, heffect⟩ := Session.start_ok hstart
  have hinfinite : (s₁.limits.getD limits).infinite = limits.infinite := by
    have hlimits : limits' = _ := heffect.limits
    rw [hs₁, Option.getD_some, hlimits, Limits.infinite_engage]
  cases hr : search chessRules (e.watch s₁ (s₁.limits.getD limits) clock)
      (e.goal s₁ (s₁.limits.getD limits) clock) g with
  | none => exact absurd (search_eq_none_iff.1 hr) (mt moves_chessRules_eq_nil.1 hg)
  | some r =>
    simp only [hr] at hsearch
    obtain ⟨hfault, -, hrecord⟩ := hsearch
    have hended := search_ended hr
    have hsettled := search_settled chessRules_decided (fun d m _ => moderate_moveValue g d m) hr
    have hdepth : (e.goal s₁ (s₁.limits.getD limits) clock).depthLimit =
      e.depthLimit (s₁.limits.getD limits) := rfl
    rw [hdepth] at hended
    refine ⟨s₁, r, hstart, hr, hrecord, ?_⟩
    simp only [hrecord]
    refine ⟨?_, fun hi hlt => ?_, hsettled.told_of_le, fun d n m v htold => ⟨?_, fun hd => ?_⟩⟩
    · have hle := hended.depth_le
      omega
    · obtain ⟨m, v, hv, htold, hstop⟩ := hended.reason hi hfault (by omega)
      refine ⟨m, v, hv, htold, ?_⟩
      rw [goesOn_iff, hinfinite, not_and_or, not_lt] at hstop
      refine hstop.imp_right fun hlate => ?_
      simpa only [Classical.not_imp, not_lt] using hlate
    · obtain ⟨-, -, hbest⟩ := hsettled.of_told d n m v htold
      exact hbest.value_eq.symm
    · rw [← hinfinite]
      exact goesOn_iff.1 (hended.goesOn d n m v htold hd)

/-- A search with a second on its clock, at a tenth of a second for a node: the optimum is 200
milliseconds, of which the first depth uses 100 and the second all that is left. -/
theorem stops_at_optimum :
    let limits : Limits := .forSide .white 1000 0 1 1000
    let clock : Clock := fun _ n => 1000 + 100 * n
    let s := Session.fresh Constants.tuned .standard .silent
    let record := (standard.thinkBy .cornered limits clock .none s).record
    let s₁ := ((Session.start limits (.position Game.cornered.position.ply
      Game.cornered.position.turn) none).run.run s).2
    Game.cornered.legalMoves ≠ [] ∧
      (standard.thinkBy .cornered limits clock .none s).move.isOk = true ∧
      record = ⟨some (-100), 2, 7, false⟩ ∧
      (record.depth : Int) < standard.depthLimit (s₁.limits.getD limits) ∧
      s₁.hasClock = true ∧ s₁.allocator.optimum ≤ s₁.elapsed (clock .optimum 7) 7 ∧
      ∃ n, s₁.elapsed (clock .optimum n) n < s₁.allocator.optimum := by
  intro limits clock s record s₁
  have hg : Game.cornered.legalMoves ≠ [] := by decide +kernel
  have hok : (standard.thinkBy .cornered limits clock .none s).move.isOk = true := by
    decide +kernel
  have hrecord : record = ⟨some (-100), 2, 7, false⟩ := by decide +kernel
  have hdepth : record.depth = 2 := congrArg SearchRecord.depth hrecord
  have hnodes : record.nodes = 7 := congrArg SearchRecord.nodes hrecord
  have hlimit : (record.depth : Int) < standard.depthLimit (s₁.limits.getD limits) := by
    rw [hdepth]
    decide +kernel
  have hclock : s₁.hasClock = true := by decide +kernel
  obtain ⟨move, hmove⟩ := exists_of_isOk hok
  obtain ⟨s₂, r, hstart, -, -, -, hreason, htold, hearlier⟩ := stops_for_reason hg hmove
  obtain rfl : s₁ = s₂ := congrArg Prod.snd hstart
  obtain ⟨m, v, hv, -, hstop⟩ := hreason (congrArg SearchRecord.interrupted hrecord) hlimit
  have hvalue : v = -100 :=
    (Option.some.inj ((congrArg SearchRecord.value hrecord).symm.trans hv)).symm
  have hno_mate : ¬ mateValue - standard.maxDepth ≤ |v| := by
    rw [hvalue]
    decide
  have hlate : s₁.allocator.optimum ≤ s₁.elapsed (clock .optimum record.nodes) record.nodes :=
    (hstop.resolve_left hno_mate).2.2
  rw [hnodes] at hlate
  obtain ⟨n, m', w, hw⟩ := htold 1 Nat.one_pos (by rw [hdepth]; decide)
  obtain ⟨-, hgo⟩ := hearlier 1 n m' w hw
  obtain ⟨-, hbefore⟩ := hgo (.inl (hdepth.symm ▸ Nat.one_lt_two))
  exact ⟨hg, hok, hrecord, hlimit, hclock, hlate, n, hbefore hclock rfl⟩

end Zeitnot.Engine
