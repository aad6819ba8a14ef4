import Zeitnot.Proofs.Clock.Failure
set_option autoImplicit false

namespace Zeitnot
open Number Stateful

def TimeSettings.atUnitRate (settings : TimeSettings) : TimeSettings :=
  { settings with nodesPerMs := 1 }

/-- A budget of `b` nodes, one that is left or one that the clock sets. -/
def Allocator.Funded (a : Allocator) (time b : Int) : Prop :=
  a.availableNodes = b ∨ a.availableNodes = unseeded ∧ time = b

/-- A search of one side that has `b` nodes, and one that has `b` milliseconds. -/
structure Armed.OnPar (us : Side) (b : Int) (s t : Armed) : Prop where
  positive : 0 < b
  clock : s.limits.time.get us ≠ 0
  funded : s.allocator.Funded (s.limits.time.get us) b
  time : t.limits.time.get us = b
  inc : s.limits.inc.get us = t.limits.inc.get us
  movesToGo : s.limits.movesToGo = t.limits.movesToGo
  quiet : s.journal.quiet = t.journal.quiet

structure Armed.BoundAlike (B : Int → Int → Prop) (p q : List String) (s t : Armed) : Prop where
  optimum : B s.allocator.optimum t.allocator.optimum
  maximum : B s.allocator.maximum t.allocator.maximum
  journal : s.journal.Parallel p q t.journal

theorem Allocator.Funded.engage {a : Allocator} {l : Limits} {us : Side} {b : Int}
    (h : a.Funded (l.time.get us) b) (hclock : l.time.get us ≠ 0) (hb : 0 < b) :
    (a.engage l us 1).availableNodes = b := by
  rw [availableNodes_engage]
  rcases h with h | ⟨hunseeded, htime⟩
  · have hseeded : a.availableNodes ≠ unseeded := by rw [h, unseeded]; omega
    rw [if_neg fun hc => hseeded hc.2.2, h]
  · rw [if_pos ⟨hclock, one_ne_zero, hunseeded⟩, one_mul, htime]

namespace Armed.OnPar
variable {us : Side} {b : Int} {s t : Armed}

theorem limits_engage (h : s.OnPar us b t) :
    s.limits.engage s.allocator us 1 = s.limits.inNodes us b 1 := by
  rw [Limits.engage, if_pos ⟨h.clock, one_ne_zero⟩, h.funded.engage h.clock h.positive]

theorem reading (h : s.OnPar us b t) (settings : TimeSettings) :
    ((s.begun true).inNodes us 1).SameReading settings.atUnitRate settings us (t.begun false) where
  rate := by simp [Armed.inNodes, Armed.begun, TimeSettings.atUnitRate]
  overhead := rfl
  ponder := rfl
  time := by
    rw [Armed.limits_inNodes h.clock one_ne_zero, h.limits_engage]
    simp [Limits.inNodes, Armed.begun, h.time]
  inc := by simp [Armed.inNodes, Limits.inNodes, Armed.begun, h.inc]
  movesToGo := h.movesToGo

theorem allocation_eq {S : Type} [Scalar S] (h : s.OnPar us b t) (c : Constants S)
    {settings : TimeSettings} (hwall : settings.nodesPerMs = 0) (ply : Int) (adjust : S) :
    allocation c settings.atUnitRate (s.limits.engage s.allocator us 1) us ply adjust =
      allocation c settings t.limits us ply adjust := by
  simp only [allocation, h.limits_engage, Limits.inNodes, PerSide.get_set, mul_one, h.time, h.inc,
    h.movesToGo, TimeSettings.atUnitRate, hwall, one_ne_zero, if_true, if_false]

end Armed.OnPar

namespace Arming
variable {S : Type} [Scalar S] {B : Int → Int → Prop} {p q : List String}

theorem boundAlike_report (e : Event S) : Respects (Armed.BoundAlike B p q) (report e) :=
  respects_report_of (fun _ _ h => h.journal) (fun _ _ _ _ h hjk => { h with journal := hjk }) e

theorem boundAlike_setBounds (hB : ∀ i, B i i) (c : Constants S) {settings settings' : TimeSettings}
    {us : Side} (ply : Int) (adjust : S) {s t : Armed} (h : s.BoundAlike B p q t)
    (hread : s.SameReading settings settings' us t) :
    ((setBounds c settings us ply adjust).run.run s).1 =
        ((setBounds c settings' us ply adjust).run.run t).1 ∧
      Armed.BoundAlike B p q ((setBounds c settings us ply adjust).run.run s).2
        ((setBounds c settings' us ply adjust).run.run t).2 :=
  setBounds_related c ply adjust h hread (boundAlike_report _) (fun _ => boundAlike_report _)
    (fun _ _ _ => boundAlike_report _)
    (fun _ => respects_modify fun _ _ h => { h with optimum := hB _ })
    fun _ => respects_modify fun _ _ h => { h with maximum := hB _ }

/-- Arming at one node a millisecond gives what arming by the clock gives, and relates the bounds if
they were related. -/
theorem arm_atUnitRate (hB : ∀ i, B i i) (c : Constants S) {settings : TimeSettings}
    (hwall : settings.nodesPerMs = 0) {us : Side} (ply : Int) (adjust : S) {b : Int} {s t : Armed}
    (h : s.OnPar us b t) (hoptimum : B s.allocator.optimum t.allocator.optimum)
    (hmaximum : B s.allocator.maximum t.allocator.maximum) :
    let x := (arm c settings.atUnitRate us ply adjust).run.run s
    let y := (arm c settings us ply adjust).run.run t
    x.1 = y.1 ∧ B x.2.allocator.optimum y.2.allocator.optimum ∧
      B x.2.allocator.maximum y.2.allocator.maximum ∧ x.2.journal.quiet = y.2.journal.quiet := by
  have hclock : t.limits.time.get us ≠ 0 := by rw [h.time]; exact h.positive.ne'
  -- The budget can always be told, so that it does not tell the two apart.
  let counting := (s.begun true).inNodes us 1
  obtain ⟨j, hj, -⟩ := counting.journal.write_of_lines
    (e := .nodeBudget (S := S) counting.allocator.availableNodes 1) rfl
  have hquiet : j.quiet = t.journal.quiet := (Journal.quiet_write hj).trans h.quiet
  have halike : Armed.BoundAlike B j.lines t.journal.lines { counting with journal := j }
      (t.begun false) :=
    ⟨by simpa [counting, Armed.inNodes, Armed.begun] using hoptimum,
      by simpa [counting, Armed.inNodes, Armed.begun] using hmaximum,
      Journal.parallel_of_quiet hquiet⟩
  have hread : Armed.SameReading settings.atUnitRate settings us { counting with journal := j }
      (t.begun false) := { h.reading settings with }
  obtain ⟨hresult, hafter⟩ := boundAlike_setBounds hB c ply adjust halike hread
  have hs : (arm c settings.atUnitRate us ply adjust).run.run s =
      (setBounds c settings.atUnitRate us ply adjust).run.run { counting with journal := j } := by
    rw [run_arm, if_neg h.clock, if_neg (by simp [TimeSettings.atUnitRate])]
    simp only [TimeSettings.atUnitRate]
    rw [run_bind, run_report, hj]
  have ht : (arm c settings us ply adjust).run.run t =
      (setBounds c settings us ply adjust).run.run (t.begun false) := by
    rw [run_arm, if_neg hclock, if_pos hwall]
  rw [hs, ht]
  exact ⟨hresult, hafter.optimum, hafter.maximum, hafter.journal.quiet⟩

theorem engaged_atUnitRate (c : Constants S) (settings : TimeSettings) {us : Side} (ply : Int)
    (adjust : S) {b : Int} {s t : Armed} (h : s.OnPar us b t) :
    let x := (arm c settings.atUnitRate us ply adjust).run.run s
    x.2.limits = s.limits.inNodes us b 1 ∧ x.2.allocator.availableNodes = b ∧
      x.2.allocator.useNodes = true := by
  intro x
  obtain ⟨optimum, maximum, ha⟩ := allocator_arm c settings.atUnitRate us ply adjust s
  have ha : x.2.allocator = _ := ha
  refine ⟨(limits_arm c settings.atUnitRate us ply adjust s).trans h.limits_engage, ?_, ?_⟩
  · rw [ha]
    exact h.funded.engage h.clock h.positive
  · rw [ha]
    exact (Allocator.useNodes_engage _ _ _ _).2 ⟨h.clock, one_ne_zero⟩

theorem bounds_atUnitRate {c : Constants S} {settings : TimeSettings}
    (hwall : settings.nodesPerMs = 0) {us : Side} {ply : Int} {adjust adjust₁ adjust₂ : S} {b : Int}
    {s t s' t' : Armed} (h : s.OnPar us b t)
    (hs : (arm c settings.atUnitRate us ply adjust).run.run s = (.ok adjust₁, s'))
    (ht : (arm c settings us ply adjust).run.run t = (.ok adjust₂, t')) :
    s'.allocator.optimum = t'.allocator.optimum ∧ s'.allocator.maximum = t'.allocator.maximum := by
  have hclock : t.limits.time.get us ≠ 0 := by rw [h.time]; exact h.positive.ne'
  have hx := arm_ok hs
  have hy := arm_ok ht
  have hlimits : t'.limits = t.limits := by
    rw [hy.limits, Limits.engage, if_neg fun hc => hc.2 hwall]
  obtain ⟨r, hr, -, ha⟩ := hx.timed h.clock
  obtain ⟨r', hr', -, hb⟩ := hy.timed hclock
  rw [hx.limits] at hr
  rw [hlimits, ← h.allocation_eq c hwall] at hr'
  obtain rfl : r = r' := Except.ok.inj (hr.symm.trans hr')
  rw [ha, hb]
  exact ⟨rfl, rfl⟩

end Arming
end Zeitnot
