import Zeitnot.Proofs.Clock.Likeness
/-!
Arming that fails. The start time, the mode, the node budget and the limits are those of the search
by then; the bounds are mostly not set yet.
-/
set_option autoImplicit false

namespace Zeitnot
open Number Stateful

/-- The bounds at a fault: as they were, unless the fault comes from the maximum or from the other
side's time, after the optimum has been set. -/
inductive BoundsAtFault {S : Type} [Scalar S] (c : Constants S) (settings : TimeSettings)
    (time : Int) (fault : Fault) (a : Allocator) : Allocator → Prop
  | unset : BoundsAtFault c settings time fault a a
  | maximum {scale : S} {aim : Int}
      (h : maximumFor c time settings.moveOverhead aim scale = .error fault) :
      BoundsAtFault c settings time fault a { a with optimum := aim }
  | ponder {scale : S} {aim maximum : Int}
      (hmaximum : maximumFor c time settings.moveOverhead aim scale = .ok maximum)
      (h : withPonder c settings.ponder aim = .error fault) :
      BoundsAtFault c settings time fault a { a with optimum := aim, maximum }

namespace BoundsAtFault
variable {S : Type} [Scalar S] {c : Constants S} {settings : TimeSettings} {time : Int}
  {fault : Fault} {a a' : Allocator}

theorem availableNodes (h : BoundsAtFault c settings time fault a a') :
    a'.availableNodes = a.availableNodes := by cases h <;> rfl

theorem useNodes (h : BoundsAtFault c settings time fault a a') : a'.useNodes = a.useNodes := by
  cases h <;> rfl

theorem engaged (h : BoundsAtFault c settings time fault a a') :
    ∃ optimum maximum, a' = { a with optimum, maximum } := by
  cases h <;> exact ⟨_, _, rfl⟩

end BoundsAtFault

namespace Arming
variable {S : Type} [Scalar S]

theorem report_bind_error {α : Type} {e : Event S} {f : Unit → Arming α} {s s' : Armed}
    {fault : Fault} (h : (report e >>= f).run.run s = (.error fault, s')) :
    (s' = s ∧ s.journal.write e = .error fault) ∨ ∃ j, j.quiet = s.journal.quiet ∧
      (f ()).run.run { s with journal := j } = (.error fault, s') := by
  rw [run_bind, run_report] at h
  cases hw : s.journal.write e with
  | error fault =>
    rw [hw] at h
    cases h
    exact .inl ⟨rfl, rfl⟩
  | ok j =>
    rw [hw] at h
    exact .inr ⟨j, Journal.quiet_write hw, h⟩

theorem settleAdjust_bind_error {α : Type} {c : Constants S} {movesToGo timeLeft : Int}
    {adjust : S} {f : S → Arming α} {s s' : Armed} {fault : Fault}
    (h : (settleAdjust c movesToGo timeLeft adjust >>= f).run.run s = (.error fault, s')) :
    s' = s ∨ ∃ settled j, j.quiet = s.journal.quiet ∧
      (f settled).run.run { s with journal := j } = (.error fault, s') := by
  unfold settleAdjust at h
  split at h
  · simp only [bind_assoc, pure_bind] at h
    rcases run_liftExcept_bind_error h with ⟨-, rfl⟩ | ⟨derived, -, h⟩
    · exact .inl rfl
    · rcases report_bind_error h with ⟨rfl, -⟩ | ⟨j, hq, h⟩
      · exact .inl rfl
      · exact .inr ⟨derived, j, hq, h⟩
  · exact .inr ⟨adjust, s.journal, rfl, h⟩

theorem setBounds_error {c : Constants S} {settings : TimeSettings} {us : Side} {ply : Int}
    {adjust : S} {s s' : Armed} {fault : Fault}
    (h : (setBounds c settings us ply adjust).run.run s = (.error fault, s')) :
    s'.limits = s.limits ∧ s'.journal.quiet = s.journal.quiet ∧
      BoundsAtFault c settings (s.limits.time.get us) fault s.allocator s'.allocator := by
  unfold setBounds at h
  rw [run_get_bind] at h
  rcases run_liftExcept_bind_error h with ⟨-, rfl⟩ | ⟨scaledTime, -, h⟩
  · exact ⟨rfl, rfl, .unset⟩
  rcases report_bind_error h with ⟨rfl, -⟩ | ⟨j, hj, h⟩
  · exact ⟨rfl, rfl, .unset⟩
  rcases run_liftExcept_bind_error h with ⟨-, rfl⟩ | ⟨centiMoves, -, h⟩
  · exact ⟨rfl, hj, .unset⟩
  rcases settleAdjust_bind_error h with rfl | ⟨settled, k, hk, h⟩
  · exact ⟨rfl, hj, .unset⟩
  have hquiet : k.quiet = s.journal.quiet := hk.trans hj
  rcases run_liftExcept_bind_error h with ⟨-, rfl⟩ | ⟨scales, -, h⟩
  · exact ⟨rfl, hquiet, .unset⟩
  rcases run_liftExcept_bind_error h with ⟨-, rfl⟩ | ⟨aim, -, h⟩
  · exact ⟨rfl, hquiet, .unset⟩
  rw [updateAllocator, run_modify_bind] at h
  rcases run_liftExcept_bind_error h with ⟨hmaximum, rfl⟩ | ⟨maximum, hmaximum, h⟩
  · exact ⟨rfl, hquiet, .maximum hmaximum⟩
  rw [updateAllocator, run_modify_bind] at h
  rcases run_liftExcept_bind_error h with ⟨hponder, rfl⟩ | ⟨optimum, -, h⟩
  · exact ⟨rfl, hquiet, .ponder hmaximum hponder⟩
  rw [updateAllocator, run_modify_bind] at h
  rcases report_bind_error h with ⟨-, hw⟩ | ⟨l, -, h⟩
  · obtain ⟨l, hl, -⟩ :=
      k.write_of_lines (e := .bounds (S := S) optimum maximum settings.ponder) rfl
    rw [hl] at hw
    cases hw
  · cases h

theorem arm_error {c : Constants S} {settings : TimeSettings} {us : Side} {ply : Int} {adjust : S}
    {s s' : Armed} {fault : Fault}
    (h : (arm c settings us ply adjust).run.run s = (.error fault, s')) :
    s.limits.time.get us ≠ 0 ∧ s'.limits = s.limits.engage s.allocator us settings.nodesPerMs ∧
      s'.journal.quiet = s.journal.quiet ∧
      BoundsAtFault c settings (s'.limits.time.get us) fault
        (s.allocator.engage s.limits us settings.nodesPerMs) s'.allocator := by
  rw [run_arm] at h
  split at h <;> rename_i ht
  · rcases report_bind_error h with ⟨-, hw⟩ | ⟨j, -, h⟩
    · obtain ⟨j, hj, -⟩ := (s.begun false).journal.write_of_lines (e := .untimed (S := S)) rfl
      rw [hj] at hw
      cases hw
    · cases h
  · refine ⟨ht, ?_⟩
    split at h <;> rename_i hn
    · obtain ⟨hl, hq, hb⟩ := setBounds_error h
      have hlimits : s'.limits = s.limits := hl
      have ha : s.allocator.engage s.limits us settings.nodesPerMs = (s.begun false).allocator := by
        simp [Allocator.engage, Armed.begun, hn]
      rw [ha, hlimits]
      exact ⟨by simp [Limits.engage, hn], hq, hb⟩
    · rw [← Armed.allocator_inNodes ht hn, ← Armed.limits_inNodes ht hn]
      rcases report_bind_error h with ⟨rfl, -⟩ | ⟨j, hj, h⟩
      · exact ⟨rfl, rfl, .unset⟩
      · obtain ⟨hl, hq, hb⟩ := setBounds_error h
        rw [hl]
        exact ⟨rfl, hq.trans hj, hb⟩

theorem limits_arm (c : Constants S) (settings : TimeSettings) (us : Side) (ply : Int) (adjust : S)
    (s : Armed) :
    ((arm c settings us ply adjust).run.run s).2.limits =
      s.limits.engage s.allocator us settings.nodesPerMs := by
  rcases h : (arm c settings us ply adjust).run.run s with ⟨fault | adjust', s'⟩
  · exact (arm_error h).2.1
  · exact (arm_ok h).limits

theorem allocator_arm (c : Constants S) (settings : TimeSettings) (us : Side) (ply : Int)
    (adjust : S) (s : Armed) :
    ∃ optimum maximum, ((arm c settings us ply adjust).run.run s).2.allocator =
      { s.allocator.engage s.limits us settings.nodesPerMs with optimum, maximum } := by
  rcases h : (arm c settings us ply adjust).run.run s with ⟨fault | adjust', s'⟩
  · exact (arm_error h).2.2.2.engaged
  · exact (arm_ok h).engaged

end Arming
end Zeitnot
