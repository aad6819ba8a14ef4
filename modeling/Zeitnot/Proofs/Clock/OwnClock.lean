import Zeitnot.Proofs.Clock.Failure
set_option autoImplicit false

namespace Zeitnot
open Number Stateful

theorem Journal.Parallel.eq {p : List String} {j k : Journal} (h : Parallel p p j k) : j = k := by
  obtain ⟨hquiet, lines, hj, hk⟩ := h
  rcases j with ⟨_, _⟩
  rcases k with ⟨_, _⟩
  simp only at hquiet hj hk
  rw [hquiet, hj, hk]

/-- Limits that are the same for one side, whatever they say besides. -/
structure Limits.AgreeFor (us : Side) (l m : Limits) : Prop where
  time : l.time.get us = m.time.get us
  inc : l.inc.get us = m.inc.get us
  movesToGo : l.movesToGo = m.movesToGo
  startTime : l.startTime = m.startTime

theorem Limits.AgreeFor.inNodes {us : Side} {l m : Limits} (h : l.AgreeFor us m)
    (budget nodesPerMs : Int) :
    (l.inNodes us budget nodesPerMs).AgreeFor us (m.inNodes us budget nodesPerMs) where
  time := by simp [Limits.inNodes]
  inc := by simp [Limits.inNodes, h.inc]
  movesToGo := h.movesToGo
  startTime := h.startTime

structure Armed.AgreeFor (us : Side) (p q : List String) (s t : Armed) : Prop where
  allocator : s.allocator = t.allocator
  limits : s.limits.AgreeFor us t.limits
  journal : s.journal.Parallel p q t.journal

namespace Armed.AgreeFor
variable {us : Side} {p q : List String} {s t : Armed}

theorem reading (h : s.AgreeFor us p q t) (settings : TimeSettings) :
    s.SameReading settings settings us t where
  rate := by rw [h.allocator]
  overhead := rfl
  ponder := rfl
  time := h.limits.time
  inc := h.limits.inc
  movesToGo := h.limits.movesToGo

theorem begun (h : s.AgreeFor us p q t) (byNodes : Bool) :
    (s.begun byNodes).AgreeFor us p q (t.begun byNodes) where
  allocator := by rw [Armed.begun, Armed.begun, h.allocator, h.limits.startTime]
  limits := h.limits
  journal := h.journal

theorem inNodes (h : s.AgreeFor us p q t) (nodesPerMs : Int) :
    (s.inNodes us nodesPerMs).AgreeFor us p q (t.inNodes us nodesPerMs) := by
  have hcounting : (s.inNodes us nodesPerMs).allocator = (t.inNodes us nodesPerMs).allocator := by
    simp only [Armed.inNodes, h.allocator, h.limits.time]
  refine ⟨hcounting, ?_, h.journal⟩
  have hbudget := congrArg Allocator.availableNodes hcounting
  simp only [Armed.inNodes] at hbudget ⊢
  rw [hbudget]
  exact h.limits.inNodes _ nodesPerMs

end Armed.AgreeFor

namespace Arming
variable {S : Type} [Scalar S] {us : Side} {p q : List String}

theorem agreeFor_report (e : Event S) : Respects (Armed.AgreeFor us p q) (report e) :=
  respects_report_of (fun _ _ h => h.journal) (fun _ _ _ _ h hjk => { h with journal := hjk }) e

theorem agreeFor_updateAllocator (f : Allocator → Allocator) :
    Respects (Armed.AgreeFor us p q) (updateAllocator f) :=
  respects_modify fun _ _ h => { h with allocator := congrArg f h.allocator }

theorem agreeFor_setBounds (c : Constants S) (settings : TimeSettings) (ply : Int) (adjust : S) :
    Respects (Armed.AgreeFor us p q) (setBounds c settings us ply adjust) := fun _ _ h =>
  setBounds_related c ply adjust h (h.reading settings) (agreeFor_report _)
    (fun _ => agreeFor_report _) (fun _ _ _ => agreeFor_report _)
    (fun _ => agreeFor_updateAllocator _) fun _ => agreeFor_updateAllocator _

theorem agreeFor_arm (c : Constants S) (settings : TimeSettings) (ply : Int) (adjust : S) :
    Respects (Armed.AgreeFor us p q) (arm c settings us ply adjust) := by
  intro s t h
  have hin := (h.begun true).inNodes settings.nodesPerMs
  exact arm_related c settings us ply adjust h.limits.time (fun _ => h.begun false)
    (fun _ _ => ⟨congrArg Allocator.availableNodes hin.allocator, hin⟩) (agreeFor_report _)
    (fun _ _ => agreeFor_report _) (agreeFor_setBounds c settings ply adjust)

/-- Arming comes to the same under limits that agree for the side that moves. It leaves the limits
as they are, or with that side's clock counted in nodes: what is left of the budget on the clock,
the increment in nodes, and the rate. -/
theorem arm_for_own_clock (c : Constants S) (settings : TimeSettings) (us : Side) (ply : Int)
    (adjust : S) (a : Allocator) (j : Journal) {l m : Limits} (h : l.AgreeFor us m) :
    let x := (arm c settings us ply adjust).run.run ⟨a, l, j⟩
    let y := (arm c settings us ply adjust).run.run ⟨a, m, j⟩
    let counted := l.time.get us ≠ 0 ∧ settings.nodesPerMs ≠ 0
    x.1 = y.1 ∧ x.2.allocator = y.2.allocator ∧ x.2.journal = y.2.journal ∧
      x.2.allocator.availableNodes =
        (if counted ∧ a.availableNodes = Allocator.unseeded then
          settings.nodesPerMs * l.time.get us
        else a.availableNodes) ∧
      x.2.limits =
        if counted then
          { l with
            time := l.time.set us x.2.allocator.availableNodes
            inc := l.inc.set us (l.inc.get us * settings.nodesPerMs)
            nodesPerMs := settings.nodesPerMs }
        else l := by
  intro x y counted
  obtain ⟨hresult, hafter⟩ := agreeFor_arm c settings ply adjust ⟨a, l, j⟩ ⟨a, m, j⟩
    ⟨rfl, h, Journal.parallel_of_quiet rfl⟩
  obtain ⟨optimum, maximum, hallocator⟩ := allocator_arm c settings us ply adjust ⟨a, l, j⟩
  have hbudget : x.2.allocator.availableNodes =
      (a.engage l us settings.nodesPerMs).availableNodes := by
    rw [show x.2.allocator = _ from hallocator]
  refine ⟨hresult, hafter.allocator, hafter.journal.eq, ?_, ?_⟩
  · rw [hbudget, Allocator.availableNodes_engage]
    simp only [counted, and_assoc]
  · rw [hbudget]
    exact limits_arm c settings us ply adjust ⟨a, l, j⟩

theorem arm_for_white :
    let settings : TimeSettings := ⟨10, 2, false⟩
    let a : Allocator := ⟨5, 6, 7, 90, false⟩
    let l := Limits.forSide .white 1000 5 1 0
    let m : Limits := ⟨⟨1000, 70⟩, ⟨5, -3⟩, 1, 4, 0, 8, 9, 30, true, true⟩
    let x := (arm Constants.tuned settings .white 12 0.5).run.run ⟨a, l, .attentive⟩
    let y := (arm Constants.tuned settings .white 12 0.5).run.run ⟨a, m, .attentive⟩
    l.AgreeFor .white m ∧ x.1.isOk = true ∧ x.1 = y.1 ∧ x.2.allocator = y.2.allocator ∧
      x.2.limits = { l with time := ⟨90, 0⟩, inc := ⟨10, 0⟩, nodesPerMs := 2 } := by
  intro settings a l m
  have hagree : l.AgreeFor .white m := ⟨rfl, rfl, rfl, rfl⟩
  obtain ⟨hresult, hallocator, -, hbudget, hlimits⟩ :=
    arm_for_own_clock Constants.tuned settings .white 12 0.5 a .attentive hagree
  have hleft := hbudget.trans (show _ = (90 : Int) by decide)
  rw [hleft] at hlimits
  refine ⟨hagree, ?_, hresult, hallocator, hlimits.trans (by decide)⟩
  decide +kernel

end Arming
end Zeitnot
