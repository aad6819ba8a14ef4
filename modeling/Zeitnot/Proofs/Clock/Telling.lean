import Zeitnot.Proofs.Clock.Failure
set_option autoImplicit false

namespace Zeitnot
open Number Stateful

section
variable {S : Type} [Scalar S]

def Event.Tellable (e : Event S) : Prop := ∃ lines, e.lines = .ok lines

def Limits.Tellable (S : Type) [Scalar S] (l : Limits) : Prop :=
  ∀ us, (∃ t, secondsText S (l.time.get us) = .ok t) ∧ ∃ t, secondsText S (l.inc.get us) = .ok t

theorem Limits.Tellable.clock {l : Limits} (h : l.Tellable S) (name : String) (us : Side)
    (movesToGo : Int) :
    (Event.clock (S := S) name (l.time.get us) (l.inc.get us) movesToGo).Tellable := by
  obtain ⟨⟨time, htime⟩, inc, hinc⟩ := h us
  simp only [Event.Tellable, Event.lines, htime, hinc]
  exact ⟨_, rfl⟩

theorem Event.tellable_adjustDerived (a : S) : (adjustDerived a).Tellable := ⟨_, rfl⟩

theorem Event.tellable_bounds (optimum maximum : Int) (ponder : Bool) :
    (bounds (S := S) optimum maximum ponder).Tellable := ⟨_, rfl⟩

end

structure Armed.Agree (limits : Limits) (s t : Armed) : Prop where
  journal : ∃ j, t = { s with journal := j }
  limits : s.limits = limits

namespace Arming
variable {S : Type} [Scalar S] {l : Limits}

theorem agree_report {e : Event S} (h : e.Tellable) : Respects (Armed.Agree l) (report e) := by
  rintro s _ ⟨⟨j, rfl⟩, hl⟩
  obtain ⟨lines, hlines⟩ := h
  obtain ⟨k, hk, -⟩ := s.journal.write_of_lines hlines
  obtain ⟨k', hk', -⟩ := j.write_of_lines hlines
  rw [run_report, run_report, hk, hk']
  exact ⟨rfl, ⟨k', rfl⟩, hl⟩

theorem agree_updateAllocator (f : Allocator → Allocator) :
    Respects (Armed.Agree l) (updateAllocator f) :=
  respects_modify fun _ _ ⟨⟨j, h⟩, hl⟩ => ⟨⟨j, by rw [h]⟩, hl⟩

theorem agree_setBounds (c : Constants S) (settings : TimeSettings) (us : Side) (ply : Int)
    (adjust : S) (h : l.Tellable S) :
    Respects (Armed.Agree l) (setBounds c settings us ply adjust) := by
  rintro s _ ⟨⟨j, rfl⟩, rfl⟩
  exact setBounds_related c ply adjust ⟨⟨j, rfl⟩, rfl⟩ (.of_limits rfl rfl)
    (agree_report (h.clock _ us _)) (fun a => agree_report (Event.tellable_adjustDerived a))
    (fun _ _ _ => agree_report (Event.tellable_bounds _ _ _)) (fun _ => agree_updateAllocator _)
    fun _ => agree_updateAllocator _

theorem arm_agree (c : Constants S) (settings : TimeSettings) (us : Side) (ply : Int) (adjust : S)
    (s : Armed) (j : Journal)
    (h : (s.limits.engage s.allocator us settings.nodesPerMs).Tellable S) :
    let x := (arm c settings us ply adjust).run.run s
    let y := (arm c settings us ply adjust).run.run { s with journal := j }
    x.1 = y.1 ∧ ∃ k, y.2 = { x.2 with journal := k } := by
  intro x y
  suffices hxy : x.1 = y.1 ∧
      x.2.Agree (s.limits.engage s.allocator us settings.nodesPerMs) y.2 from
    ⟨hxy.1, hxy.2.journal⟩
  have hbegun (hs : s.limits.time.get us = 0 ∨ settings.nodesPerMs = 0) :
      (s.begun false).Agree (s.limits.engage s.allocator us settings.nodesPerMs)
        (Armed.begun { s with journal := j } false) := by
    refine ⟨⟨j, rfl⟩, ?_⟩
    rcases hs with ht | hn
    · simp [Armed.begun, Limits.engage, ht]
    · simp [Armed.begun, Limits.engage, hn]
  exact arm_related c settings us ply adjust rfl hbegun
    (fun ht hn => ⟨rfl, ⟨j, rfl⟩, Armed.limits_inNodes ht hn⟩) (agree_report ⟨_, rfl⟩)
    (fun _ _ => agree_report ⟨_, rfl⟩) (agree_setBounds c settings us ply adjust h)

end Arming
end Zeitnot
