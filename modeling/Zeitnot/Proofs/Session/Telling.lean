import Zeitnot.Proofs.Clock.Telling
import Zeitnot.Proofs.Session.Likeness
set_option autoImplicit false

namespace Zeitnot
open Number Stateful

namespace Session
variable {S : Type}

def Agree (s t : Session S) : Prop := ∃ j, t = { s with journal := j }

theorem Agree.allocator {s t : Session S} (h : s.Agree t) : s.allocator = t.allocator := by
  obtain ⟨j, rfl⟩ := h
  rfl

variable [Scalar S]

theorem agree_report {e : Event S} (h : e.Tellable) : Respects Agree (report e) := by
  rintro s _ ⟨j, rfl⟩
  obtain ⟨lines, hlines⟩ := h
  obtain ⟨k, hk, -⟩ := s.journal.write_of_lines hlines
  obtain ⟨k', hk', -⟩ := j.write_of_lines hlines
  rw [run_report, run_report, hk, hk']
  exact ⟨rfl, k', rfl⟩

theorem limits_armed (s : Session S) (us : Side) (ply : Int) (adjust : S) (limits : Limits) :
    (s.armed us ply adjust limits).2.1 =
      limits.engage s.allocator us s.options.timeSettings.nodesPerMs :=
  Arming.limits_arm s.constants s.options.timeSettings us ply adjust
    ⟨s.allocator, limits, s.journal⟩

theorem limitsAfter_start {s : Session S} (h : s.options.timeSettings.nodesPerMs = 0)
    (limits : Limits) (root : Root) (us? : Option Side) :
    s.limitsAfter (.start limits root us?) = some limits := by
  simp only [limitsAfter, limits_armed, h, Limits.engage, ne_eq, not_true_eq_false, and_false,
    if_false]
  split <;> rfl

theorem Agree.limitsAfter {s t : Session S} (h : s.Agree t) : s.limitsAfter = t.limitsAfter := by
  obtain ⟨j, rfl⟩ := h
  funext c
  cases c <;> simp only [Session.limitsAfter, limits_armed]

theorem Agree.armed {s t : Session S} (h : s.Agree t) (us : Side) (ply : Int) (adjust : S)
    (limits : Limits) (htell : (s.armed us ply adjust limits).2.1.Tellable S) :
    ∃ result limits' s' t', s.armed us ply adjust limits = (result, limits', s') ∧
      t.armed us ply adjust limits = (result, limits', t') ∧ s'.Agree t' := by
  obtain ⟨j, rfl⟩ := h
  rw [limits_armed] at htell
  obtain ⟨hresult, k, hafter⟩ := Arming.arm_agree s.constants s.options.timeSettings us ply adjust
    ⟨s.allocator, limits, s.journal⟩ j htell
  rcases hs : (Arming.arm s.constants s.options.timeSettings us ply adjust).run.run
    ⟨s.allocator, limits, s.journal⟩ with ⟨result, x⟩
  rcases ht : (Arming.arm s.constants s.options.timeSettings us ply adjust).run.run
    ⟨s.allocator, limits, j⟩ with ⟨result', y⟩
  rw [hs, ht] at hresult hafter
  obtain rfl : result = result' := hresult
  obtain rfl : y = { x with journal := k } := hafter
  have hj := armed_of_run (s := { s with journal := j }) ht
  exact ⟨result, x.limits, _, _, armed_of_run hs, hj, k, rfl⟩

theorem Agree.start {s t : Session S} (h : s.Agree t) {limits : Limits} {root : Root}
    {us? : Option Side}
    (htell : ∀ l ∈ s.limitsAfter (.start limits root us?), l.Tellable S) :
    ((Session.start limits root us?).run.run s).1 =
        ((Session.start limits root us?).run.run t).1 ∧
      ((Session.start limits root us?).run.run s).2.Agree
        ((Session.start limits root us?).run.run t).2 := by
  cases hu : us? <|> root.turn? with
  | none =>
    rw [run_start_of_no_side hu, run_start_of_no_side hu]
    exact ⟨rfl, h⟩
  | some us =>
    have hadjust : s.adjust = t.adjust := by
      obtain ⟨j, rfl⟩ := h
      rfl
    simp only [Session.limitsAfter, hu, Option.mem_some_iff, forall_eq'] at htell
    obtain ⟨result, limits', s', t', hs, ht, j, rfl⟩ :=
      h.armed us root.plyCount s.adjust limits htell
    rw [run_start hu, run_start hu, ← hadjust, hs, ht]
    cases result <;> exact ⟨rfl, j, rfl⟩

theorem agree_advance (nodes : Int) : Respects Agree (advance (S := S) nodes) := by
  intro s t h
  unfold advance
  rw [run_get_bind, run_get_bind, ← h.allocator]
  split
  · rw [run_modify_bind, run_modify_bind, run_get_bind, run_get_bind, ← h.allocator]
    obtain ⟨j, rfl⟩ := h
    exact agree_report ⟨_, rfl⟩ _ _ ⟨j, rfl⟩
  · exact ⟨rfl, h⟩

theorem agree_finish (nodes : Int) (us : Side) : Respects Agree (finish (S := S) nodes us) := by
  rintro s _ ⟨j, rfl⟩
  obtain ⟨k, hk, -⟩ := run_finish nodes us s
  obtain ⟨k', hk', -⟩ := run_finish nodes us { s with journal := j }
  rw [hk, hk']
  exact ⟨rfl, k', rfl⟩

theorem Agree.after_step {s t : Session S} (h : s.Agree t) (now : Int) (c : Command S)
    (htell : ∀ l ∈ s.limitsAfter c, l.Tellable S) :
    (s.step now c).1 = (t.step now c).1 ∧ (s.step now c).2.Agree (t.step now c).2 := by
  cases c with
  | start limits root us? => exact related_bind (h.start htell) fun _ => respects_pure _
  | arm limits us ply adjust =>
    simp only [Session.limitsAfter, Option.mem_some_iff, forall_eq'] at htell
    obtain ⟨result, limits', s', t', hs, ht, h'⟩ := h.armed us ply adjust limits htell
    rw [step_arm, step_arm, hs, ht]
    cases result <;> exact ⟨rfl, h'⟩
  | finish nodes us => exact ((agree_finish nodes us).bind fun _ => respects_pure _) s t h
  | advance nodes => exact ((agree_advance nodes).bind fun _ => respects_pure _) s t h
  | setOption name raw =>
    obtain ⟨j, rfl⟩ := h
    rw [step_setOption, step_setOption]
    cases s.options.set name raw <;> exact ⟨rfl, j, rfl⟩
  | _ =>
    obtain ⟨j, rfl⟩ := h
    exact ⟨rfl, j, rfl⟩

end Session
end Zeitnot
