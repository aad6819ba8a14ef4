import Zeitnot.Proofs.Engine.TimeManagement
set_option autoImplicit false

namespace Zeitnot.Engine
open Chess Number Search Stateful

section
variable {S : Type} {s : Session S} {l : Limits} {clock : Clock} {m : Nat}

theorem outOfTime_of_nodes (h : 0 < l.nodes) (hm : l.nodes ≤ m) :
    outOfTime s l clock m = true := by
  simp [outOfTime, h.ne', hm]

theorem outOfTime_of_maximum (hclock : s.hasClock = true) (hinf : l.infinite = false)
    (h : s.allocator.maximum < s.elapsed (clock .maximum m) m) :
    outOfTime s l clock m = true := by
  simp [outOfTime, Session.shouldStop, hclock, hinf, h]

end

variable {S : Type} [Scalar S]

/-- A search never goes past a look at its limits that finds them used up, and is cut off exactly if
it ends at one. So it ends within one interval of its nodes, and at the first look that finds its
maximum exceeded. -/
theorem cut_off_at_first_look {e : Engine} {g : Game} {limits : Limits} {clock : Clock}
    {last : SearchRecord} {s : Session S} {move : Option Move} (hf : 1 ≤ e.checkEvery)
    (h : (e.thinkBy g limits clock last s).move = .ok move) :
    let record := (e.thinkBy g limits clock last s).record
    ∃ s₁, (Session.start limits (.position g.position.ply g.position.turn) none).run.run s =
        (.ok (), s₁) ∧
      (∀ m : Nat, 0 < m → e.checkEvery ∣ m → m < record.nodes →
        outOfTime s₁ (s₁.limits.getD limits) clock m = false) ∧
      (record.interrupted = true ↔ 0 < record.nodes ∧ e.checkEvery ∣ record.nodes ∧
        outOfTime s₁ (s₁.limits.getD limits) clock record.nodes = true) ∧
      (0 < limits.nodes → record.nodes < limits.nodes + e.checkEvery) ∧
      (s₁.hasClock = true → limits.infinite = false → ∀ m : Nat, 0 < m → e.checkEvery ∣ m →
        s₁.allocator.maximum < s₁.elapsed (clock .maximum m) m → record.nodes ≤ m) := by
  obtain ⟨s₁, j, hstart, -, hsearch⟩ := thinkBy_ok h
  refine ⟨s₁, hstart, ?_⟩
  obtain ⟨us, adjust', limits', a, j', -, hs₁, heffect⟩ := Session.start_ok hstart
  have hlimits : s₁.limits.getD limits =
      limits.engage s.allocator us s.options.timeSettings.nodesPerMs := by
    rw [hs₁]
    exact heffect.limits
  cases hr : search chessRules (e.watch s₁ (s₁.limits.getD limits) clock)
      (e.goal s₁ (s₁.limits.getD limits) clock) g with
  | none =>
    simp only [hr] at hsearch
    rw [hsearch.2]
    simp only [SearchRecord.none]
    refine ⟨fun m _ _ hm => absurd hm (Nat.not_lt_zero m), by simp, fun hn => ?_, fun _ _ m _ _ _ =>
      Nat.zero_le m⟩
    omega
  | some r =>
    simp only [hr] at hsearch
    rw [hsearch.2.2]
    have hw : (e.watch s₁ (s₁.limits.getD limits) clock).every ≠ 0 := by
      simp only [watch]; omega
    have hpass := search_passes hr
    refine ⟨fun m hm hd hlt => ?_, search_interrupted_iff hw hr, fun hn => ?_,
      fun hclock hinf m hm hd hmax => ?_⟩
    · exact hpass.clear.expired_eq_false hm (Nat.le_sub_one_of_lt hlt) hd
    · obtain ⟨limit, hlimit⟩ := Int.eq_ofNat_of_zero_le (by omega : 0 ≤ limits.nodes - 1)
      have hused : ∀ m, limit < m →
          (e.watch s₁ (s₁.limits.getD limits) clock).expired m = true := fun m hm =>
        outOfTime_of_nodes (by simpa [hlimits] using hn)
          (by rw [hlimits, Limits.nodes_engage]; omega)
      have hend := hpass.nodes_le_interval hw hused
      rw [show (e.watch s₁ (s₁.limits.getD limits) clock).every = e.checkEvery from rfl,
        abs_of_pos (by omega)] at hend
      simp only
      omega
    · refine hpass.nodes_le_of_expired hm hd (outOfTime_of_maximum hclock ?_ hmax)
      rw [hlimits, Limits.infinite_engage]
      exact hinf

theorem cut_off_at_fourth :
    let e : Engine := ⟨64, 4, 2⟩
    let limits : Limits := { Limits.unlimited 1000 with nodes := 3 }
    let s := Session.fresh Constants.tuned .standard .silent
    let record := (e.thinkBy .cornered limits (fun _ _ => 1000) .none s).record
    1 ≤ e.checkEvery ∧ (e.thinkBy .cornered limits (fun _ _ => 1000) .none s).move.isOk = true ∧
      record.interrupted = true ∧ 0 < record.nodes ∧ e.checkEvery ∣ record.nodes ∧
      (record.nodes : Int) < 3 + 2 := by
  intro e limits s record
  obtain ⟨hok, hcut⟩ : (e.thinkBy .cornered limits (fun _ _ => 1000) .none s).move.isOk = true ∧
      record.interrupted = true := by decide +kernel
  obtain ⟨move, hmove⟩ := exists_of_isOk hok
  obtain ⟨s₁, -, -, hiff, hnodes, -⟩ := cut_off_at_first_look (e := e) (by decide) hmove
  obtain ⟨hpos, hdvd, -⟩ := hiff.1 hcut
  exact ⟨by decide, hok, hcut, hpos, hdvd, hnodes (by decide)⟩

end Zeitnot.Engine
