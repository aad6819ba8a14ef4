import Zeitnot.Proofs.Clock.Adjustment
import Zeitnot.Proofs.Clock.Likeness
import Zeitnot.Proofs.Number.Exact
/-!
The allocation without roundings. In sudden death, from the first ply on, it then has an answer for
every clock and all settings, so that every such search can be armed.
-/
set_option autoImplicit false

namespace Zeitnot
open Number Number.Exact Stateful

namespace Arming
variable {S : Type} [Scalar S]

theorem report_bind_of_quiet {α : Type} {s : Armed} (hq : s.journal.quiet = true) (e : Event S)
    (f : Unit → Arming α) : (report e >>= f).run.run s = (f ()).run.run s := by
  rw [run_bind, run_report, Journal.write_of_quiet hq]

theorem settleAdjust_bind_of_quiet {α : Type} {c : Constants S} {movesToGo timeLeft : Int}
    {adjust settled : S} {s : Armed} (hq : s.journal.quiet = true)
    (h : settledAdjust c movesToGo timeLeft adjust = .ok settled) (f : S → Arming α) :
    (settleAdjust c movesToGo timeLeft adjust >>= f).run.run s = (f settled).run.run s := by
  unfold settledAdjust at h
  unfold settleAdjust
  split at h <;> rename_i hc
  · simp only [if_pos hc, bind_assoc, pure_bind]
    rw [run_liftExcept_bind h]
    exact report_bind_of_quiet hq _ _
  · cases h
    simp only [if_neg hc, pure_bind]

theorem setBounds_of_allocation {c : Constants S} {settings : TimeSettings} {us : Side} {ply : Int}
    {adjust : S} {s : Armed} {r : Allocation S}
    (hn : s.allocator.useNodes = true ↔ settings.nodesPerMs ≠ 0) (hq : s.journal.quiet = true)
    (h : allocation c settings s.limits us ply adjust = .ok r) :
    ∃ s', (setBounds c settings us ply adjust).run.run s = (.ok r.adjust, s') ∧
      s'.journal = s.journal := by
  unfold allocation at h
  obtain ⟨centiMoves, hmoves, h⟩ := bind_ok h
  obtain ⟨settled, hsettled, h⟩ := bind_ok h
  obtain ⟨scales, hscales, h⟩ := bind_ok h
  obtain ⟨aim, haim, h⟩ := bind_ok h
  obtain ⟨maximum, hmaximum, h⟩ := bind_ok h
  obtain ⟨optimum, hoptimum, h⟩ := bind_ok h
  cases h
  unfold setBounds
  rw [run_get_bind]
  simp only [rate_eq hn]
  rw [run_liftExcept_bind (divide_of_ne_zero _ (rate_ne_zero _)), report_bind_of_quiet hq,
    run_liftExcept_bind hmoves, settleAdjust_bind_of_quiet hq hsettled,
    run_liftExcept_bind hscales, run_liftExcept_bind haim, updateAllocator, run_modify_bind,
    run_liftExcept_bind hmaximum, updateAllocator, run_modify_bind, run_liftExcept_bind hoptimum,
    updateAllocator, run_modify_bind]
  refine ⟨_, (report_bind_of_quiet ?_ _ _).trans rfl, rfl⟩
  exact hq

theorem arm_of_allocation {c : Constants S} {settings : TimeSettings} {us : Side} {ply : Int}
    {adjust : S} {s : Armed} {r : Allocation S} (hclock : s.limits.time.get us ≠ 0)
    (hq : s.journal.quiet = true)
    (h : allocation c settings (s.limits.engage s.allocator us settings.nodesPerMs) us ply adjust =
      .ok r) :
    ∃ s', (arm c settings us ply adjust).run.run s = (.ok r.adjust, s') ∧
      s'.journal = s.journal := by
  rw [run_arm, if_neg hclock]
  by_cases hn : settings.nodesPerMs = 0
  · rw [if_pos hn]
    rw [Limits.engage, if_neg fun hc => hc.2 hn] at h
    exact setBounds_of_allocation (s := s.begun false) (by simp [Armed.begun, hn]) hq h
  · rw [if_neg hn]
    rw [← Armed.limits_inNodes hclock hn] at h
    have hmode : ((s.begun true).inNodes us settings.nodesPerMs).allocator.useNodes = true ↔
        settings.nodesPerMs ≠ 0 := by simp [Armed.inNodes, hn]
    have hquiet : ((s.begun true).inNodes us settings.nodesPerMs).journal.quiet = true := hq
    obtain ⟨s', hs', hj⟩ := setBounds_of_allocation hmode hquiet h
    exact ⟨s', (report_bind_of_quiet hquiet _ _).trans hs', hj⟩

end Arming

noncomputable def Constants.decimals : Constants EReal where
  suddenDeathHorizon := 5051
  longestHorizon := 5000
  shortClockRate := (5.051 : ℝ)
  adjustLogFactor := (0.3128 : ℝ)
  adjustOffset := (0.4354 : ℝ)
  optBase := (0.0032116 : ℝ)
  optLogFactor := (0.000321123 : ℝ)
  optMost := (0.00508017 : ℝ)
  maxBase := (3.3977 : ℝ)
  maxLogFactor := (3.03950 : ℝ)
  maxLeast := (2.94761 : ℝ)
  optOffset := (0.0121431 : ℝ)
  plyOffset := (2.94693 : ℝ)
  plyExponent := (0.461073 : ℝ)
  optTimeLeftCap := (0.213035 : ℝ)
  maxScaleCap := (6.67704 : ℝ)
  maxPlyDivisor := (11.9847 : ℝ)
  controlOptBase := (0.88 : ℝ)
  controlPlyDivisor := (116.4 : ℝ)
  controlTimeLeftCap := (0.88 : ℝ)
  controlMaxBase := (1.3 : ℝ)
  controlMaxPerMove := (0.11 : ℝ)
  optimumCap := (0.20 : ℝ)
  maximumCap := (0.30 : ℝ)
  overheadCap := (0.825179 : ℝ)
  ponderDivisor := 4

theorem derivedAdjust_decimals {timeLeft : Int} (h : 1 ≤ timeLeft) :
    derivedAdjust Constants.decimals timeLeft =
      .ok ((0.3128 * decimalLog timeLeft - 0.4354 : ℝ) : EReal) := by
  simp only [derivedAdjust, log10OfInt_eq (show 0 < timeLeft by omega), Constants.decimals, mul_coe,
    sub_coe, bind, Except.bind, pure, Except.pure]

theorem negative_coe (r : ℝ) : Negative (r : EReal) ↔ r < 0 := by
  simp only [Negative, ofNat_eq, Nat.cast_zero, less_coe, decide_eq_true_eq]

theorem accurate_decimals : Accurate Constants.decimals EReal.toReal := by
  intro timeLeft adjust hone h
  rw [derivedAdjust_decimals hone] at h
  cases h
  have hlog : 0 ≤ decimalLog (timeLeft : ℝ) := decimalLog_nonneg (by exact_mod_cast hone)
  refine ⟨by rw [negative_coe, EReal.toReal_coe], ?_⟩
  rw [EReal.toReal_coe, sub_self, abs_zero]
  positivity

section
variable (settings : TimeSettings) (us : Side)

theorem centiMovesToGo_decimals (movesToGo scaledTime : Int) :
    centiMovesToGo Constants.decimals movesToGo scaledTime =
      let horizon := if movesToGo ≠ 0 then min (movesToGo * 100) 5000 else 5051
      .ok (if scaledTime < 1000 then min horizon (towardZero (scaledTime * 5.051))
        else horizon) := by
  simp only [centiMovesToGo, Constants.decimals, ofInt_eq, mul_coe, truncate_coe, bind, Except.bind,
    pure, Except.pure]
  by_cases hshort : scaledTime < 1000
  · simp only [if_pos hshort]
  · simp only [if_neg hshort]

theorem settledAdjust_decimals (movesToGo : Int) {timeLeft : Int} (h : 1 ≤ timeLeft) (adjust : ℝ) :
    ∃ settled : ℝ, settledAdjust Constants.decimals movesToGo timeLeft (adjust : EReal) =
      .ok (settled : EReal) := by
  rw [settledAdjust_eq, derivedAdjust_decimals h]
  split <;> exact ⟨_, rfl⟩

theorem suddenDeathScales_decimals (time scaledTime : Int) {timeLeft ply : Int} (ht : 1 ≤ timeLeft)
    (hply : 0 ≤ ply) (adjust : ℝ) :
    ∃ opt max : ℝ, suddenDeathScales Constants.decimals time scaledTime timeLeft ply adjust =
      .ok ⟨(opt : EReal), (max : EReal)⟩ := by
  have hseconds : (0 : ℝ) < ((max scaledTime 1 : Int) : ℝ) / (1000 : ℕ) := by
    have hone : (1 : Int) ≤ max scaledTime 1 := le_max_right _ _
    have hpos : (0 : ℝ) < ((max scaledTime 1 : Int) : ℝ) := by exact_mod_cast hone
    exact div_pos hpos (by norm_num)
  have hbase : (0 : ℝ) < (ply : ℝ) + 2.94693 := by
    have hnonneg : (0 : ℝ) ≤ ply := by exact_mod_cast hply
    linarith
  simp only [suddenDeathScales, Constants.decimals, ofInt_eq, ofNat_eq,
    div_coe _ (show (((1000 : ℕ) : ℝ)) ≠ 0 by norm_num), log10_coe hseconds, mul_coe, add_coe,
    least_coe, greatest_coe, quotient_eq time (show timeLeft ≠ 0 by omega), pow_coe hbase,
    div_coe _ (show (11.9847 : ℝ) ≠ 0 by norm_num), bind, Except.bind, pure, Except.pure]
  exact ⟨_, _, rfl⟩

theorem optimumFor_decimals (time timeLeft : Int) (scale : ℝ) :
    ∃ aim, optimumFor Constants.decimals time timeLeft (scale : EReal) = .ok aim := by
  simp only [optimumFor, shareOf, Constants.decimals, ofInt_eq, mul_coe, truncate_coe, bind,
    Except.bind, pure, Except.pure]
  exact ⟨_, rfl⟩

theorem maximumFor_decimals (time overhead aim : Int) (scale : ℝ) :
    ∃ maximum, maximumFor Constants.decimals time overhead aim (scale : EReal) = .ok maximum := by
  simp only [maximumFor, maximumAim, shareOf, Constants.decimals, ofInt_eq, mul_coe, sub_coe,
    least_coe, truncate_coe, bind, Except.bind, pure, Except.pure]
  exact ⟨_, rfl⟩

theorem withPonder_decimals (ponder : Bool) (aim : Int) :
    ∃ optimum, withPonder Constants.decimals ponder aim = .ok optimum := by
  cases ponder <;> exact ⟨_, rfl⟩

theorem allocation_decimals {l : Limits} {ply : Int} (hsudden : l.movesToGo = 0) (hply : 0 ≤ ply)
    (adjust : ℝ) :
    ∃ (r : Allocation EReal) (settled : ℝ), r.adjust = settled ∧
      allocation Constants.decimals settings l us ply adjust = .ok r := by
  let scaledTime := truncDiv (l.time.get us)
    (if settings.nodesPerMs = 0 then 1 else settings.nodesPerMs)
  obtain ⟨centiMoves, hmoves⟩ : ∃ centiMoves,
      centiMovesToGo Constants.decimals l.movesToGo scaledTime = .ok centiMoves :=
    ⟨_, centiMovesToGo_decimals _ _⟩
  let timeLeft := effectiveTimeLeft (l.time.get us) (l.inc.get us) centiMoves settings.moveOverhead
  have hleft : 1 ≤ timeLeft := one_le_effectiveTimeLeft _ _ _ _
  obtain ⟨settled, hsettled⟩ := settledAdjust_decimals l.movesToGo hleft adjust
  obtain ⟨opt, most, hscales⟩ :=
    suddenDeathScales_decimals (l.time.get us) scaledTime hleft hply settled
  obtain ⟨aim, haim⟩ := optimumFor_decimals (l.time.get us) timeLeft opt
  obtain ⟨maximum, hmaximum⟩ :=
    maximumFor_decimals (l.time.get us) settings.moveOverhead aim most
  obtain ⟨optimum, hoptimum⟩ := withPonder_decimals settings.ponder aim
  refine ⟨⟨settled, ⟨opt, most⟩, aim, maximum, optimum⟩, settled, rfl, ?_⟩
  have hscalesFor : scalesFor Constants.decimals l.movesToGo (l.time.get us) scaledTime centiMoves
      timeLeft ply (settled : EReal) = .ok ⟨(opt : EReal), (most : EReal)⟩ := by
    rw [scalesFor, if_pos hsudden, hscales]
  simp only [allocation, bind, Except.bind, pure, Except.pure]
  simp only [scaledTime, timeLeft] at hmoves hsettled hscalesFor haim
  simp only [hmoves, hsettled, hscalesFor, haim, hmaximum, hoptimum]

end

end Zeitnot
