import Zeitnot.Proofs.Clock.Arming
import Zeitnot.Session
/-!
What the actions of a session do, one law for each: reports touch the journal alone, a search that
starts arms the allocator, and one that is finished is charged to the node budget while nodes are
counted.
-/
set_option autoImplicit false

namespace Zeitnot
open Number Stateful

namespace Session
variable {S : Type} [Scalar S]

theorem run_report (e : Event S) (s : Session S) :
    (report e).run.run s =
      match s.journal.write e with
      | .ok journal => (.ok (), { s with journal })
      | .error fault => (.error (.arithmetic fault), s) := by
  simp only [report, run_bind, run_get]
  cases s.journal.write e <;> rfl

omit [Scalar S] in
theorem run_setOption (name : String) (raw : Config.Value) (s : Session S) :
    (setOption name raw).run.run s =
      match s.options.set name raw with
      | .ok options => (.ok (), { s with options })
      | .error fault => (.error (.option fault), s) := by
  simp only [setOption]
  rw [run_get_bind]
  cases s.options.set name raw <;> rfl

/-- An action that touches the journal alone, and not even that if the journal is quiet. -/
structure Telling {α : Type} (act : Action S α) : Prop where
  journal : ∀ s, ∃ j, (act.run.run s).2 = { s with journal := j }
  quiet : ∀ s : Session S, s.journal.quiet = true → ∃ a, act.run.run s = (.ok a, s)

theorem telling_report (e : Event S) : Telling (report e) := by
  constructor
  · intro s
    rw [run_report]
    cases s.journal.write e with
    | ok j => exact ⟨j, rfl⟩
    | error fault => exact ⟨s.journal, rfl⟩
  · intro s hq
    rw [run_report, Journal.write_of_quiet hq]
    exact ⟨(), rfl⟩

omit [Scalar S] in
theorem Telling.bind {α β : Type} {act : Action S α} {next : α → Action S β} (h : Telling act)
    (hn : ∀ a, Telling (next a)) : Telling (act >>= next) := by
  constructor
  · intro s
    rw [run_bind]
    obtain ⟨j, hj⟩ := h.journal s
    rcases hr : act.run.run s with ⟨fault | a, s₁⟩ <;> rw [hr] at hj <;> obtain rfl : s₁ = _ := hj
    · exact ⟨j, rfl⟩
    · obtain ⟨j', hj'⟩ := (hn a).journal { s with journal := j }
      exact ⟨j', hj'⟩
  · intro s hq
    obtain ⟨a, ha⟩ := h.quiet s hq
    rw [run_bind, ha]
    exact (hn a).quiet s hq

theorem telling_reports {α : Type} (event : α → Event S) (as : List α) :
    Telling (forIn as PUnit.unit fun a _ => do
      report (event a)
      pure (ForInStep.yield PUnit.unit) : Action S PUnit) := by
  induction as with
  | nil => exact ⟨fun s => ⟨s.journal, rfl⟩, fun s _ => ⟨(), rfl⟩⟩
  | cons a as ih =>
    simp only [List.forIn_cons, bind_assoc, pure_bind]
    exact (telling_report (event a)).bind fun _ => ih

theorem armed_ok {s s' : Session S} {us : Side} {ply : Int} {adjust adjust' : S}
    {limits limits' : Limits} (h : s.armed us ply adjust limits = (.ok adjust', limits', s')) :
    ∃ a j, s' = { s with allocator := a, journal := j } ∧
      Arming.Effect s.constants s.options.timeSettings us ply adjust
        ⟨s.allocator, limits, s.journal⟩ adjust' ⟨a, limits', j⟩ := by
  unfold armed at h
  rcases hr : (Arming.arm s.constants s.options.timeSettings us ply adjust).run.run
    ⟨s.allocator, limits, s.journal⟩ with ⟨result, a, l, j⟩
  simp only [hr, Prod.mk.injEq] at h
  obtain ⟨rfl, rfl, rfl⟩ := h
  exact ⟨a, j, rfl, Arming.arm_ok hr⟩

theorem armed_eq (s : Session S) (us : Side) (ply : Int) (adjust : S) (limits : Limits) :
    ∃ result limits' a j, s.armed us ply adjust limits =
      (result, limits', { s with allocator := a, journal := j }) := ⟨_, _, _, _, rfl⟩

theorem run_start {limits : Limits} {root : Root} {us? : Option Side} {us : Side}
    (hu : (us? <|> root.turn?) = some us) (s : Session S) :
    (start limits root us?).run.run s =
      match s.armed us root.plyCount s.adjust limits with
      | (.ok adjust, limits, s) => (.ok (), { s with adjust, limits := some limits })
      | (.error fault, limits, s) =>
        (.error (.arithmetic fault), { s with limits := some limits }) := by
  simp only [start, hu]
  rw [run_get_bind]
  rcases s.armed us root.plyCount s.adjust limits with ⟨result, limits', s'⟩
  cases result <;> rfl

theorem run_start_of_no_side {limits : Limits} {root : Root} {us? : Option Side}
    (hu : (us? <|> root.turn?) = none) (s : Session S) :
    (start limits root us?).run.run s = (.error .sideRequired, s) := by
  simp only [start, hu]
  rfl

theorem start_ok {limits : Limits} {root : Root} {us? : Option Side} {s s' : Session S}
    (h : (start limits root us?).run.run s = (.ok (), s')) :
    ∃ us adjust' limits' a j, (us? <|> root.turn?) = some us ∧
      s' = { s with allocator := a, adjust := adjust', limits := some limits', journal := j } ∧
      Arming.Effect s.constants s.options.timeSettings us root.plyCount s.adjust
        ⟨s.allocator, limits, s.journal⟩ adjust' ⟨a, limits', j⟩ := by
  cases hu : us? <|> root.turn? with
  | none => rw [run_start_of_no_side hu] at h; cases h
  | some us =>
    rw [run_start hu] at h
    rcases ha : s.armed us root.plyCount s.adjust limits with ⟨fault | adjust', limits', s₁⟩ <;>
      rw [ha] at h <;> cases h
    obtain ⟨a, j, rfl, hr⟩ := armed_ok ha
    exact ⟨us, adjust', limits', a, j, rfl, rfl, hr⟩

theorem start_untimed (limits : Limits) (root : Root) {us? : Option Side} {us : Side}
    (hu : (us? <|> root.turn?) = some us) (ht : limits.time.get us = 0) (s : Session S) :
    ∃ j, (start limits root us?).run.run s = (.ok (), { s with
        allocator := { s.allocator with startTime := limits.startTime, useNodes := false }
        limits := some limits
        journal := j }) ∧
      (s.journal.quiet = true → j = s.journal) := by
  obtain ⟨j, hj, hquiet⟩ := Arming.run_arm_untimed s.constants s.options.timeSettings
    root.plyCount s.adjust (s := ⟨s.allocator, limits, s.journal⟩) ht
  refine ⟨j, ?_, hquiet⟩
  rw [run_start hu, armed, hj]

def settled (s : Session S) (nodes : Int) (us : Side) : Allocator :=
  match s.limits with
  | some l =>
    if l.nodesPerMs ≠ 0 ∧ s.allocator.useNodes = true then
      s.allocator.charge (nodes - l.inc.get us)
    else s.allocator
  | none => s.allocator

theorem run_advance {s : Session S} (h : s.allocator.useNodes = true) (nodes : Int) :
    ∃ j, (advance nodes).run.run s =
        (.ok (), { s with allocator := s.allocator.charge nodes, journal := j }) ∧
      j.quiet = s.journal.quiet := by
  obtain ⟨j, hj, -⟩ := s.journal.write_of_lines
    (e := .nodesCharged (S := S) nodes (s.allocator.charge nodes).availableNodes) rfl
  refine ⟨j, ?_, Journal.quiet_write hj⟩
  simp only [advance, run_get_bind, h, if_true, run_modify_bind, run_report, hj]

theorem run_finish (nodes : Int) (us : Side) (s : Session S) :
    ∃ j, (finish nodes us).run.run s =
        (.ok (), { s with allocator := s.settled nodes us, journal := j }) ∧
      j.quiet = s.journal.quiet := by
  rcases s with ⟨c, o, a, adjust, limits, j⟩
  simp only [finish, run_get_bind, settled]
  cases limits with
  | none => exact ⟨j, rfl, rfl⟩
  | some l =>
    by_cases hc : l.nodesPerMs ≠ 0 ∧ a.useNodes = true
    · simp only [if_pos hc]
      exact run_advance hc.2 _
    · simp only [if_neg hc]
      exact ⟨j, rfl, rfl⟩

section
variable (s : Session S) (now : Int)

theorem step_start {limits : Limits} {root : Root} {us? : Option Side} {us : Side}
    (hu : (us? <|> root.turn?) = some us) :
    s.step now (.start limits root us?) =
      match s.armed us root.plyCount s.adjust limits with
      | (.ok adjust, limits, s) => (.ok .done, { s with adjust, limits := some limits })
      | (.error fault, limits, s) =>
        (.error (.arithmetic fault), { s with limits := some limits }) := by
  simp only [step, perform]
  rw [run_bind, run_start hu]
  rcases s.armed us root.plyCount s.adjust limits with ⟨_ | _, _, _⟩ <;> rfl

theorem step_start_of_no_side {limits : Limits} {root : Root} {us? : Option Side}
    (hu : (us? <|> root.turn?) = none) :
    s.step now (.start limits root us?) = (.error .sideRequired, s) := by
  simp only [step, perform]
  rw [run_bind, run_start_of_no_side hu]

theorem step_finish (nodes : Int) (us : Side) :
    ∃ j, s.step now (.finish nodes us) =
      (.ok .done, { s with allocator := s.settled nodes us, journal := j }) := by
  obtain ⟨j, hj, -⟩ := run_finish nodes us s
  refine ⟨j, ?_⟩
  simp only [step, perform]
  rw [run_bind, hj]
  rfl

theorem step_advance (nodes : Int) :
    ∃ j answer, s.step now (.advance nodes) = (answer, { s with
      allocator := if s.allocator.useNodes then s.allocator.charge nodes else s.allocator
      journal := j }) := by
  simp only [step, perform]
  rw [run_bind]
  cases h : s.allocator.useNodes with
  | true =>
    obtain ⟨j, hj, -⟩ := run_advance h nodes
    rw [hj]
    exact ⟨j, _, rfl⟩
  | false =>
    refine ⟨s.journal, .error .notByNodes, ?_⟩
    simp only [advance, run_get_bind, h, Bool.false_eq_true, if_false, run_throw]

theorem step_setOption (name : String) (raw : Config.Value) :
    s.step now (.setOption name raw) =
      match s.options.set name raw with
      | .ok options => (.ok .done, { s with options })
      | .error fault => (.error (.option fault), s) := by
  simp only [step, perform, setOption, bind_assoc]
  rw [run_get_bind]
  cases s.options.set name raw <;> rfl

theorem step_arm (limits : Limits) (us : Side) (ply : Int) (adjust : S) :
    s.step now (.arm limits us ply adjust) =
      match s.armed us ply adjust limits with
      | (.ok adjust, _, s) => (.ok (.adjust adjust), s)
      | (.error fault, _, s) => (.error (.arithmetic fault), s) := by
  simp only [step, perform]
  rw [run_bind]
  simp only [arm, ExceptT.run, StateT.run]
  rcases s.armed us ply adjust limits with ⟨_ | _, _, _⟩ <;> rfl

theorem step_keeps (c : Command S) :
    (s.step now c).2.constants = s.constants ∧
      ((s.step now c).2.options = s.options ∨ (s.step now c).2.options = s.options.reset ∨
        ∃ name raw, s.options.set name raw = .ok (s.step now c).2.options) := by
  cases c with
  | start limits root us? =>
    cases hu : us? <|> root.turn? with
    | none =>
      rw [step_start_of_no_side _ _ hu]
      exact ⟨rfl, .inl rfl⟩
    | some us =>
      rw [step_start _ _ hu]
      obtain ⟨result, limits', a, j, harmed⟩ := armed_eq s us root.plyCount s.adjust limits
      rw [harmed]
      cases result <;> exact ⟨rfl, .inl rfl⟩
  | arm limits us ply adjust =>
    rw [step_arm]
    obtain ⟨result, limits', a, j, harmed⟩ := armed_eq s us ply adjust limits
    rw [harmed]
    cases result <;> exact ⟨rfl, .inl rfl⟩
  | finish nodes us =>
    obtain ⟨j, hj⟩ := step_finish s now nodes us
    rw [hj]
    exact ⟨rfl, .inl rfl⟩
  | advance nodes =>
    obtain ⟨j, answer, hj⟩ := step_advance s now nodes
    rw [hj]
    exact ⟨rfl, .inl rfl⟩
  | setOption name raw =>
    rw [step_setOption]
    cases hset : s.options.set name raw with
    | ok options => exact ⟨rfl, .inr (.inr ⟨name, raw, hset⟩)⟩
    | error fault => exact ⟨rfl, .inl rfl⟩
  | resetOptions => exact ⟨rfl, .inr (.inl rfl)⟩
  | _ => exact ⟨rfl, .inl rfl⟩

end

end Session
end Zeitnot
