import Mathlib.Tactic
import Zeitnot.Clock.Allocator
import Zeitnot.Proofs.Stateful
/-!
Arming a search. The order of the updates and the reports apart, it seeds the node budget, counts
the clock in nodes, and sets two bounds that are a function of the limits and the settings.
-/
set_option autoImplicit false

namespace Zeitnot
open Number Stateful

section
variable {S : Type} [Scalar S]
open Scalar

structure Allocation (S : Type) where
  adjust : S
  scales : Scales S
  /-- The optimum as it is without the other side's time. -/
  aim : Int
  maximum : Int
  optimum : Int

def settledAdjust (c : Constants S) (movesToGo timeLeft : Int) (adjust : S) : Except Fault S :=
  if movesToGo = 0 ∧ less adjust (Scalar.ofNat 0) = true then derivedAdjust c timeLeft
  else pure adjust

def allocation (c : Constants S) (settings : TimeSettings) (l : Limits) (us : Side) (ply : Int)
    (adjust : S) : Except Fault (Allocation S) := do
  let time := l.time.get us
  let scaledTime := truncDiv time (if settings.nodesPerMs = 0 then 1 else settings.nodesPerMs)
  let centiMoves ← centiMovesToGo c l.movesToGo scaledTime
  let timeLeft := effectiveTimeLeft time (l.inc.get us) centiMoves settings.moveOverhead
  let adjust ← settledAdjust c l.movesToGo timeLeft adjust
  let scales ← scalesFor c l.movesToGo time scaledTime centiMoves timeLeft ply adjust
  let aim ← optimumFor c time timeLeft scales.opt
  let maximum ← maximumFor c time settings.moveOverhead aim scales.max
  let optimum ← withPonder c settings.ponder aim
  pure ⟨adjust, scales, aim, maximum, optimum⟩

theorem optimumFor_ok {c : Constants S} {time timeLeft aim : Int} {scale : S}
    (h : optimumFor c time timeLeft scale = .ok aim) :
    ∃ cap, shareOf c.optimumCap time = .ok cap ∧ 1 ≤ aim ∧ aim ≤ max 1 cap := by
  unfold optimumFor at h
  obtain ⟨cap, hcap, h⟩ := bind_ok h
  obtain ⟨share, hshare, h⟩ := bind_ok h
  cases h
  exact ⟨cap, hcap, by omega, by omega⟩

theorem maximumFor_ok {c : Constants S} {time overhead aim maximum : Int} {scale : S}
    (h : maximumFor c time overhead aim scale = .ok maximum) :
    ∃ cap most, shareOf c.maximumCap time = .ok cap ∧
      maximumAim c time overhead aim scale = .ok most ∧
      aim ≤ maximum ∧ maximum ≤ max aim cap ∧ maximum ≤ max aim most := by
  unfold maximumFor at h
  obtain ⟨cap, hcap, h⟩ := bind_ok h
  obtain ⟨most, hmost, h⟩ := bind_ok h
  cases h
  exact ⟨cap, most, hcap, hmost, by omega, by omega, by omega⟩

omit [Scalar S] in
theorem withPonder_ok {c : Constants S} {ponder : Bool} {aim optimum : Int}
    (h : withPonder c ponder aim = .ok optimum) :
    optimum = if ponder then aim + aim.fdiv c.ponderDivisor else aim := by
  unfold withPonder floorDiv at h
  cases ponder with
  | false => cases h; rfl
  | true =>
    by_cases hd : c.ponderDivisor = 0
    · simp only [hd, if_true] at h; cases h
    · simp only [hd, if_true, if_false] at h; cases h; rfl

end

theorem Allocator.availableNodes_seed (a : Allocator) (nodesPerMs time : Int) :
    (a.seed nodesPerMs time).availableNodes =
      if a.availableNodes = unseeded then nodesPerMs * time else a.availableNodes := by
  unfold seed; split <;> rfl

@[simp] theorem Allocator.startTime_seed (a : Allocator) (nodesPerMs time : Int) :
    (a.seed nodesPerMs time).startTime = a.startTime := by unfold seed; split <;> rfl

/-- The allocator of a search that starts under limits, before its bounds are set. -/
def Allocator.engage (a : Allocator) (l : Limits) (us : Side) (nodesPerMs : Int) : Allocator :=
  if l.time.get us ≠ 0 ∧ nodesPerMs ≠ 0 then
    { a with startTime := l.startTime, useNodes := true }.seed nodesPerMs (l.time.get us)
  else { a with startTime := l.startTime, useNodes := false }

@[simp] theorem Allocator.optimum_engage (a : Allocator) (l : Limits) (us : Side)
    (nodesPerMs : Int) : (a.engage l us nodesPerMs).optimum = a.optimum := by
  unfold engage; split <;> simp

@[simp] theorem Allocator.maximum_engage (a : Allocator) (l : Limits) (us : Side)
    (nodesPerMs : Int) : (a.engage l us nodesPerMs).maximum = a.maximum := by
  unfold engage; split <;> simp

theorem Allocator.availableNodes_engage (a : Allocator) (l : Limits) (us : Side)
    (nodesPerMs : Int) :
    (a.engage l us nodesPerMs).availableNodes =
      if l.time.get us ≠ 0 ∧ nodesPerMs ≠ 0 ∧ a.availableNodes = unseeded then
        nodesPerMs * l.time.get us
      else a.availableNodes := by
  unfold engage
  by_cases h : l.time.get us ≠ 0 ∧ nodesPerMs ≠ 0
  · rw [if_pos h, availableNodes_seed]
    simp only [ne_eq, h.1, h.2, not_false_eq_true, true_and]
  · rw [if_neg h, if_neg fun h' => h ⟨h'.1, h'.2.1⟩]

theorem Allocator.useNodes_engage (a : Allocator) (l : Limits) (us : Side) (nodesPerMs : Int) :
    (a.engage l us nodesPerMs).useNodes = true ↔ l.time.get us ≠ 0 ∧ nodesPerMs ≠ 0 := by
  unfold engage
  split <;> rename_i h <;> simp [h]

def Limits.engage (l : Limits) (a : Allocator) (us : Side) (nodesPerMs : Int) : Limits :=
  if l.time.get us ≠ 0 ∧ nodesPerMs ≠ 0 then
    l.inNodes us (a.engage l us nodesPerMs).availableNodes nodesPerMs
  else l

theorem Limits.movesToGo_engage (l : Limits) (a : Allocator) (us : Side) (nodesPerMs : Int) :
    (l.engage a us nodesPerMs).movesToGo = l.movesToGo := by
  unfold engage; split <;> rfl

theorem Journal.write_of_lines {S : Type} [Scalar S] {e : Event S} {lines : List String}
    (h : e.lines = .ok lines) (j : Journal) :
    ∃ j', j.write e = .ok j' ∧ (j.quiet = true → j' = j) := by
  cases hq : j.quiet with
  | true => exact ⟨j, write_of_quiet hq e, fun _ => rfl⟩
  | false =>
    refine ⟨{ j with lines := j.lines ++ lines }, ?_, fun h => by cases h⟩
    simp [write, hq, h, bind, Except.bind, pure, Except.pure]

theorem Journal.quiet_write {S : Type} [Scalar S] {j j' : Journal} {e : Event S} (h : j.write e = .ok j') :
    j'.quiet = j.quiet := by
  unfold write at h
  split at h
  · cases h
    rfl
  · obtain ⟨lines, -, h⟩ := bind_ok h
    cases h
    rfl

namespace Arming
variable {S : Type} [Scalar S]

theorem run_report (e : Event S) (s : Armed) :
    (report e).run.run s =
      match s.journal.write e with
      | .ok journal => (.ok (), { s with journal })
      | .error fault => (.error fault, s) := by
  simp only [report, run_bind, run_get]
  cases h : s.journal.write e <;> rfl

theorem report_bind_ok {α : Type} {e : Event S} {f : Unit → Arming α} {s s' : Armed} {a : α}
    (h : (report e >>= f).run.run s = (.ok a, s')) :
    ∃ j, (f ()).run.run { s with journal := j } = (.ok a, s') := by
  rw [run_bind, run_report] at h
  cases hw : s.journal.write e <;> rw [hw] at h
  · cases h
  · exact ⟨_, h⟩

theorem settleAdjust_bind_ok {α : Type} {c : Constants S} {movesToGo timeLeft : Int} {adjust : S}
    {f : S → Arming α} {s s' : Armed} {a : α}
    (h : (settleAdjust c movesToGo timeLeft adjust >>= f).run.run s = (.ok a, s')) :
    ∃ settled j, settledAdjust c movesToGo timeLeft adjust = .ok settled ∧
      (f settled).run.run { s with journal := j } = (.ok a, s') := by
  unfold settleAdjust at h
  unfold settledAdjust
  split at h <;> rename_i hc
  · rw [if_pos hc]
    simp only [bind_assoc, pure_bind] at h
    obtain ⟨derived, hd, h⟩ := run_liftExcept_bind_ok h
    obtain ⟨j, h⟩ := report_bind_ok h
    exact ⟨derived, j, hd, h⟩
  · rw [if_neg hc]
    exact ⟨adjust, s.journal, rfl, h⟩

theorem rate_eq {useNodes : Bool} {nodesPerMs : Int} (h : useNodes = true ↔ nodesPerMs ≠ 0) :
    (if useNodes then nodesPerMs else 1) = if nodesPerMs = 0 then 1 else nodesPerMs := by
  by_cases h0 : nodesPerMs = 0 <;> simp_all

theorem rate_ne_zero (nodesPerMs : Int) : (if nodesPerMs = 0 then 1 else nodesPerMs) ≠ 0 := by
  split <;> omega

theorem setBounds_ok {c : Constants S} {settings : TimeSettings} {us : Side} {ply : Int}
    {adjust adjust' : S} {s s' : Armed}
    (hn : s.allocator.useNodes = true ↔ settings.nodesPerMs ≠ 0)
    (h : (setBounds c settings us ply adjust).run.run s = (.ok adjust', s')) :
    ∃ r j, allocation c settings s.limits us ply adjust = .ok r ∧ adjust' = r.adjust ∧
      s' = ⟨{ s.allocator with optimum := r.optimum, maximum := r.maximum }, s.limits, j⟩ := by
  unfold setBounds at h
  rw [run_bind, run_get] at h
  simp only [rate_eq hn] at h
  rw [run_liftExcept_bind (divide_of_ne_zero _ (rate_ne_zero _))] at h
  obtain ⟨j₁, h⟩ := report_bind_ok h
  obtain ⟨centiMoves, hmoves, h⟩ := run_liftExcept_bind_ok h
  obtain ⟨settled, j₂, hadjust, h⟩ := settleAdjust_bind_ok h
  obtain ⟨scales, hscales, h⟩ := run_liftExcept_bind_ok h
  obtain ⟨aim, haim, h⟩ := run_liftExcept_bind_ok h
  rw [run_bind, updateAllocator, run_modify] at h
  obtain ⟨maximum, hmaximum, h⟩ := run_liftExcept_bind_ok h
  rw [run_bind, updateAllocator, run_modify] at h
  obtain ⟨optimum, hoptimum, h⟩ := run_liftExcept_bind_ok h
  rw [run_bind, updateAllocator, run_modify] at h
  obtain ⟨j₃, h⟩ := report_bind_ok h
  cases h
  refine ⟨⟨adjust', scales, aim, maximum, optimum⟩, j₃, ?_, rfl, rfl⟩
  simp only [allocation, hmoves, hadjust, hscales, haim, hmaximum, hoptimum, bind, Except.bind,
    pure, Except.pure]

theorem countNodes_bind_ok {α : Type} {us : Side} {nodesPerMs : Int} {f : Unit → Arming α}
    {s s' : Armed} {a : α}
    (h : (countNodes S us nodesPerMs >>= f).run.run s = (.ok a, s')) :
    ∃ j, (f ()).run.run
      (let counting := { s.allocator with useNodes := true }.seed nodesPerMs (s.limits.time.get us)
      ⟨counting, s.limits.inNodes us counting.availableNodes nodesPerMs, j⟩) = (.ok a, s') := by
  unfold countNodes at h
  simp only [bind_assoc, updateAllocator, run_modify_bind, run_get_bind] at h
  exact report_bind_ok h

structure Effect (c : Constants S) (settings : TimeSettings) (us : Side) (ply : Int) (adjust : S)
    (s : Armed) (adjust' : S) (s' : Armed) : Prop where
  limits : s'.limits = s.limits.engage s.allocator us settings.nodesPerMs
  untimed : s.limits.time.get us = 0 →
    adjust' = adjust ∧ s'.allocator = s.allocator.engage s.limits us settings.nodesPerMs
  timed : s.limits.time.get us ≠ 0 → ∃ r, allocation c settings s'.limits us ply adjust = .ok r ∧
    adjust' = r.adjust ∧
    s'.allocator = { s.allocator.engage s.limits us settings.nodesPerMs with
      optimum := r.optimum, maximum := r.maximum }

theorem Effect.engaged {c : Constants S} {settings : TimeSettings} {us : Side} {ply : Int}
    {adjust adjust' : S} {s s' : Armed} (h : Effect c settings us ply adjust s adjust' s') :
    ∃ optimum maximum, s'.allocator =
      { s.allocator.engage s.limits us settings.nodesPerMs with optimum, maximum } := by
  by_cases ht : s.limits.time.get us = 0
  · obtain ⟨-, ha⟩ := h.untimed ht
    exact ⟨_, _, ha⟩
  · obtain ⟨r, -, -, ha⟩ := h.timed ht
    exact ⟨_, _, ha⟩

theorem arm_ok {c : Constants S} {settings : TimeSettings} {us : Side} {ply : Int}
    {adjust adjust' : S} {s s' : Armed}
    (h : (arm c settings us ply adjust).run.run s = (.ok adjust', s')) :
    Effect c settings us ply adjust s adjust' s' := by
  unfold arm at h
  simp only [updateAllocator, run_modify_bind, run_get_bind] at h
  split at h <;> rename_i ht
  · simp only [run_modify_bind] at h
    obtain ⟨j, h⟩ := report_bind_ok h
    cases h
    refine ⟨?_, fun _ => ⟨rfl, ?_⟩, fun h0 => absurd ht h0⟩ <;>
      simp [Limits.engage, Allocator.engage, ht]
  · split at h <;> rename_i hn
    · rw [run_modify_bind] at h
      obtain ⟨r, j, hr, rfl, rfl⟩ := setBounds_ok (by simp [hn]) h
      have ha : s.allocator.engage s.limits us settings.nodesPerMs =
          { s.allocator with startTime := s.limits.startTime, useNodes := false } := by
        simp [Allocator.engage, hn]
      refine ⟨by simp [Limits.engage, hn], fun h0 => absurd h0 ht, fun _ => ⟨r, hr, rfl, ?_⟩⟩
      rw [ha]
    · obtain ⟨j, h⟩ := countNodes_bind_ok h
      have ha : s.allocator.engage s.limits us settings.nodesPerMs =
          { s.allocator with startTime := s.limits.startTime, useNodes := true }.seed
            settings.nodesPerMs (s.limits.time.get us) := by
        simp only [Allocator.engage, ne_eq, ht, hn, not_false_eq_true, and_self, if_true]
      obtain ⟨r, j', hr, rfl, rfl⟩ := setBounds_ok (by simp [hn]) h
      refine ⟨?_, fun h0 => absurd h0 ht, fun _ => ⟨r, hr, rfl, ?_⟩⟩
      · rw [Limits.engage, if_pos ⟨ht, hn⟩, ha]
      · rw [ha]

theorem run_arm_untimed (c : Constants S) (settings : TimeSettings) (ply : Int) (adjust : S)
    {us : Side} {s : Armed} (ht : s.limits.time.get us = 0) :
    ∃ j, (arm c settings us ply adjust).run.run s =
        (.ok adjust, { s with
          allocator := { s.allocator with startTime := s.limits.startTime, useNodes := false }
          journal := j }) ∧
      (s.journal.quiet = true → j = s.journal) := by
  obtain ⟨j, hj, hquiet⟩ := s.journal.write_of_lines (e := .untimed (S := S)) rfl
  refine ⟨j, ?_, hquiet⟩
  unfold arm
  simp only [updateAllocator, run_modify_bind, run_get_bind, if_pos ht]
  rw [run_bind, run_report]
  simp only [hj]
  rfl

end Arming
end Zeitnot
