import Zeitnot.Proofs.Clock.Failure
import Zeitnot.Proofs.Session.Likeness
/-!
A search that fails to start. It leaves the adjustment, and mostly the bounds, but not the mode, nor
a node budget that was not set before: that is the budget of the failed search from then on. Where
the budget was set before, later searches go as if the failed one had not been asked for.
-/
set_option autoImplicit false

namespace Zeitnot
open Number Stateful

namespace Session
variable {S : Type}

/-- A search that sets the node budget of the game. -/
def Seeds (s : Session S) (limits : Limits) (us : Side) : Prop :=
  limits.time.get us ≠ 0 ∧ s.options.timeSettings.nodesPerMs ≠ 0 ∧
    s.allocator.availableNodes = Allocator.unseeded

variable [Scalar S]

theorem armed_error {s s' : Session S} {us : Side} {ply : Int} {adjust : S}
    {limits limits' : Limits} {fault : Fault}
    (h : s.armed us ply adjust limits = (.error fault, limits', s')) :
    limits.time.get us ≠ 0 ∧
      limits' = limits.engage s.allocator us s.options.timeSettings.nodesPerMs ∧
      ∃ a j, s' = { s with allocator := a, journal := j } ∧ j.quiet = s.journal.quiet ∧
        BoundsAtFault s.constants s.options.timeSettings (limits'.time.get us) fault
          (s.allocator.engage limits us s.options.timeSettings.nodesPerMs) a := by
  rcases hr : (Arming.arm s.constants s.options.timeSettings us ply adjust).run.run
    ⟨s.allocator, limits, s.journal⟩ with ⟨result, a, l, j⟩
  rw [armed_of_run hr] at h
  cases h
  obtain ⟨hclock, hlimits, hquiet, hbounds⟩ := Arming.arm_error hr
  exact ⟨hclock, hlimits, a, j, rfl, hquiet, hbounds⟩

/-- Sessions in which later searches go the same way: those that are started before any nodes are
charged, and with the first of them that has a clock everything after it. -/
def SameSearches (s t : Session S) : Prop :=
  ∀ cmds : List (Int × Command S), (∀ nc ∈ cmds, nc.2.charges = false) →
    ∀ now limits root us?,
      let s' := (s.run cmds).2.step now (.start limits root us?)
      let t' := (t.run cmds).2.step now (.start limits root us?)
      s'.1 = t'.1 ∧ ∀ us, (us? <|> root.turn?) = some us → limits.time.get us ≠ 0 →
        s'.1.isOk = true → s'.2.allocator = t'.2.allocator ∧ s'.2.adjust = t'.2.adjust ∧
          ∀ later, (s'.2.run later).1 = (t'.2.run later).1

theorem Kin.sameSearches {p q : List String} {s t : Session S} (h : s.Kin p q t) :
    s.SameSearches t := by
  intro cmds hcmds now limits root us?
  have hkin := h.after_run hcmds
  refine ⟨(hkin.after_start now limits root us?).1, fun us hu hclock hok => ?_⟩
  have halike := hkin.alike_of_start hu hclock hok
  exact ⟨halike.allocator, halike.adjust, fun later => (halike.after_run later).1⟩

/-- What a search leaves that could not be started for a fault of arithmetic. -/
structure Trace (s : Session S) (l : Limits) (us : Side) (fault : Fault) (s' : Session S) :
    Prop where
  clock : l.time.get us ≠ 0
  constants : s'.constants = s.constants
  options : s'.options = s.options
  adjust : s'.adjust = s.adjust
  limits : s'.limits = some (l.engage s.allocator us s.options.timeSettings.nodesPerMs)
  useNodes : s'.allocator.useNodes = true ↔ s.options.timeSettings.nodesPerMs ≠ 0
  bounds : BoundsAtFault s.constants s.options.timeSettings
    ((l.engage s.allocator us s.options.timeSettings.nodesPerMs).time.get us) fault
    (s.allocator.engage l us s.options.timeSettings.nodesPerMs) s'.allocator
  seeded : s.Seeds l us →
    s'.allocator.availableNodes = s.options.timeSettings.nodesPerMs * l.time.get us
  kept : ¬ s.Seeds l us →
    s'.allocator.availableNodes = s.allocator.availableNodes ∧ s.SameSearches s'

/-- A search that fails to start leaves the session untouched if its side is not known, and else
the traces that `Trace` lists. -/
theorem trace_of_failed_start {s : Session S} {now : Int} {limits : Limits} {root : Root}
    {us? : Option Side} {fault : SessionFault}
    (h : (s.step now (.start limits root us?)).1 = .error fault) :
    ((us? <|> root.turn?) = none ∧ fault = .sideRequired ∧
        (s.step now (.start limits root us?)).2 = s) ∨
      ∃ us cause, (us? <|> root.turn?) = some us ∧ fault = .arithmetic cause ∧
        s.Trace limits us cause (s.step now (.start limits root us?)).2 := by
  cases hu : us? <|> root.turn? with
  | none =>
    rw [step_start_of_no_side _ _ hu] at h ⊢
    cases h
    exact .inl ⟨rfl, rfl, rfl⟩
  | some us =>
    rw [step_start _ _ hu] at h ⊢
    rcases ha : s.armed us root.plyCount s.adjust limits with ⟨cause | adjust, limits', s₁⟩ <;>
      simp only [ha] at h ⊢ <;> cases h
    obtain ⟨hclock, rfl, a, j, rfl, hquiet, hbounds⟩ := armed_error ha
    have hbudget : a.availableNodes = _ :=
      hbounds.availableNodes.trans (Allocator.availableNodes_engage _ _ _ _)
    refine .inr ⟨us, cause, rfl, rfl, hclock, rfl, rfl, rfl, rfl, ?_, hbounds, ?_, ?_⟩
    · simp only [hbounds.useNodes, Allocator.useNodes_engage, ne_eq, hclock, not_false_eq_true,
        true_and]
    · intro hseeds
      exact hbudget.trans (if_pos hseeds)
    · intro hseeds
      have hkept : a.availableNodes = s.allocator.availableNodes := hbudget.trans (if_neg hseeds)
      have hkin : s.Kin s.journal.lines j.lines
          { s with
            allocator := a
            limits := some (limits.engage s.allocator us s.options.timeSettings.nodesPerMs)
            journal := j } :=
        ⟨rfl, rfl, hkept.symm, rfl, Journal.parallel_of_quiet hquiet.symm⟩
      exact ⟨hkept, hkin.sameSearches⟩

theorem trace_of_failed_increment :
    let s := ((fresh Constants.tuned .standard .silent).run
      [(0, .setOption "nodestime" (.int 1)),
        (0, .start (.forSide .white 1000 0 1 0) (.count 0) (some .white)),
        (9, .finish 30 .white)]).2
    let limits : Limits := .forSide .white 970 (10 ^ 309) 2 10
    let failed := s.step 10 (.start limits (.count 2) (some .white))
    failed.1.isOk = false ∧ s.allocator.availableNodes = 970 ∧
      failed.2.allocator.availableNodes = 970 ∧ failed.2.adjust = s.adjust ∧
      s.SameSearches failed.2 := by
  intro s limits failed
  have hfailed : failed.1.isOk = false := by decide +kernel
  have hbudget : s.allocator.availableNodes = 970 := by decide +kernel
  clear_value limits
  obtain ⟨fault, hfault⟩ : ∃ fault, failed.1 = .error fault := by
    cases h : failed.1 with
    | ok answer => rw [h] at hfailed; cases hfailed
    | error fault => exact ⟨fault, rfl⟩
  rcases trace_of_failed_start hfault with ⟨hside, -⟩ | ⟨us, cause, hside, -, htrace⟩
  · cases hside
  · have hseeds : ¬ s.Seeds limits us := by
      rintro ⟨-, -, hunseeded⟩
      rw [hbudget] at hunseeded
      cases hunseeded
    obtain ⟨hkept, hsame⟩ := htrace.kept hseeds
    exact ⟨hfailed, hbudget, hkept.trans hbudget, htrace.adjust, hsame⟩

/-- A clock that no number can hold sets the budget of the game, and no search starts after it. -/
theorem failed_start_sets_budget :
    let s := ((fresh Constants.tuned .standard .silent).step 0 (.setOption "nodestime" (.int 1))).2
    let start (time : Int) : Command Float :=
      .start (.forSide .white time 0 1 0) (.count 0) (some .white)
    let failed := s.step 0 (start (10 ^ 309))
    failed.1.isOk = false ∧ failed.2.allocator.availableNodes ≠ s.allocator.availableNodes ∧
      (s.step 0 (start 1000)).1.isOk = true ∧ (failed.2.step 0 (start 1000)).1.isOk = false := by
  decide +kernel

end Session
end Zeitnot
