import Zeitnot.Proofs.Clock.Likeness
import Zeitnot.Proofs.Session.Action
/-!
Two sessions side by side. Sessions that are alike answer every command in the same way and stay
alike. Sessions that have nothing in common but what outlasts a search (the settings, the node
budget and the adjustment) start searches in the same way, and are alike after one with a clock.
-/
set_option autoImplicit false

namespace Zeitnot
open Number Stateful

def Command.charges {S : Type} : Command S → Bool
  | .finish .. | .advance _ => true
  | _ => false

theorem Allocator.engage_congr {a b : Allocator} (h : a.availableNodes = b.availableNodes)
    (l : Limits) (us : Side) (nodesPerMs : Int) :
    a.engage l us nodesPerMs =
      { b.engage l us nodesPerMs with optimum := a.optimum, maximum := a.maximum } := by
  unfold engage
  split
  · unfold seed
    by_cases hb : b.availableNodes = unseeded
    · simp only [h, hb, if_true]
    · simp only [h, hb, if_false]
  · simp only [h]

theorem Limits.engage_congr {a b : Allocator} (h : a.availableNodes = b.availableNodes)
    (l : Limits) (us : Side) (nodesPerMs : Int) :
    l.engage a us nodesPerMs = l.engage b us nodesPerMs := by
  have hbudget : (a.engage l us nodesPerMs).availableNodes =
      (b.engage l us nodesPerMs).availableNodes := by rw [Allocator.engage_congr h]
  rw [engage, engage, hbudget]

namespace Session
variable {S : Type}

structure Alike (p q : List String) (s t : Session S) : Prop where
  constants : s.constants = t.constants
  options : s.options = t.options
  allocator : s.allocator = t.allocator
  adjust : s.adjust = t.adjust
  limits : s.limits = t.limits
  journal : s.journal.Parallel p q t.journal

/-- Sessions that agree on what outlasts a search. -/
structure Kin (p q : List String) (s t : Session S) : Prop where
  constants : s.constants = t.constants
  options : s.options = t.options
  availableNodes : s.allocator.availableNodes = t.allocator.availableNodes
  adjust : s.adjust = t.adjust
  journal : s.journal.Parallel p q t.journal

variable {p q : List String} {s t : Session S}

variable [Scalar S]

theorem armed_of_run {us : Side} {ply : Int} {adjust : S} {limits : Limits}
    {result : Except Fault S} {after : Armed}
    (h : (Arming.arm s.constants s.options.timeSettings us ply adjust).run.run
      ⟨s.allocator, limits, s.journal⟩ = (result, after)) :
    s.armed us ply adjust limits = (result, after.limits,
      { s with allocator := after.allocator, journal := after.journal }) := by
  rw [armed, h]

theorem armed_pair {B : Int → Int → Prop} (hB : ∀ i, B i i) (hc : s.constants = t.constants)
    (ho : s.options = t.options)
    (hbudget : s.allocator.availableNodes = t.allocator.availableNodes)
    (hoptimum : B s.allocator.optimum t.allocator.optimum)
    (hmaximum : B s.allocator.maximum t.allocator.maximum)
    (hj : s.journal.Parallel p q t.journal) (us : Side) (ply : Int) (adjust : S)
    (limits : Limits) :
    ∃ (result : Except Fault S) (x y : Armed), x.Alike B p q y ∧
      s.armed us ply adjust limits =
        (result, x.limits, { s with allocator := x.allocator, journal := x.journal }) ∧
      t.armed us ply adjust limits =
        (result, y.limits, { t with allocator := y.allocator, journal := y.journal }) := by
  obtain ⟨hresult, hafter⟩ := Arming.arm_alike hB s.constants s.options.timeSettings us ply adjust
    (s := ⟨s.allocator, limits, s.journal⟩) (t := ⟨t.allocator, limits, t.journal⟩)
    hbudget hoptimum hmaximum rfl hj
  rcases hs : (Arming.arm s.constants s.options.timeSettings us ply adjust).run.run
    ⟨s.allocator, limits, s.journal⟩ with ⟨result, x⟩
  rcases ht : (Arming.arm s.constants s.options.timeSettings us ply adjust).run.run
    ⟨t.allocator, limits, t.journal⟩ with ⟨result', y⟩
  rw [hs, ht] at hresult hafter
  obtain rfl : result = result' := hresult
  rw [hc, ho] at ht
  exact ⟨result, x, y, hafter, armed_of_run hs, armed_of_run ht⟩

theorem Kin.after_start (h : s.Kin p q t) (now : Int) (limits : Limits) (root : Root)
    (us? : Option Side) :
    (s.step now (.start limits root us?)).1 = (t.step now (.start limits root us?)).1 ∧
      (s.step now (.start limits root us?)).2.Kin p q (t.step now (.start limits root us?)).2 := by
  cases hu : us? <|> root.turn? with
  | none =>
    rw [step_start_of_no_side _ _ hu, step_start_of_no_side _ _ hu]
    exact ⟨rfl, h⟩
  | some us =>
    obtain ⟨result, x, y, hxy, hs, ht⟩ := armed_pair (B := fun _ _ => True) (fun _ => trivial)
      h.constants h.options h.availableNodes trivial trivial h.journal us root.plyCount s.adjust
      limits
    rw [step_start _ _ hu, step_start _ _ hu, ← h.adjust, hs, ht]
    cases result with
    | ok adjust =>
      exact ⟨rfl, ⟨h.constants, h.options, hxy.availableNodes, rfl, hxy.journal⟩⟩
    | error fault =>
      exact ⟨rfl, ⟨h.constants, h.options, hxy.availableNodes, h.adjust, hxy.journal⟩⟩

theorem Kin.after_arm (h : s.Kin p q t) (now : Int) (limits : Limits) (us : Side) (ply : Int)
    (adjust : S) :
    (s.step now (.arm limits us ply adjust)).1 = (t.step now (.arm limits us ply adjust)).1 ∧
      (s.step now (.arm limits us ply adjust)).2.Kin p q
        (t.step now (.arm limits us ply adjust)).2 := by
  obtain ⟨result, x, y, hxy, hs, ht⟩ := armed_pair (B := fun _ _ => True) (fun _ => trivial)
    h.constants h.options h.availableNodes trivial trivial h.journal us ply adjust limits
  rw [Session.step_arm, Session.step_arm, hs, ht]
  cases result <;>
    exact ⟨rfl, ⟨h.constants, h.options, hxy.availableNodes, h.adjust, hxy.journal⟩⟩

theorem Kin.after_step (h : s.Kin p q t) (now : Int) {c : Command S} (hc : c.charges = false) :
    (s.step now c).2.Kin p q (t.step now c).2 := by
  cases c with
  | start limits root us? => exact (h.after_start now limits root us?).2
  | arm limits us ply adjust => exact (h.after_arm now limits us ply adjust).2
  | finish nodes us => cases hc
  | advance nodes => cases hc
  | setOption name raw =>
    rw [step_setOption, step_setOption, ← h.options]
    cases s.options.set name raw with
    | ok options => exact { h with options := rfl }
    | error fault => exact h
  | resetOptions => exact { h with options := congrArg Options.reset h.options }
  | newGame => exact { h with availableNodes := rfl, adjust := rfl }
  | clear => exact { h with availableNodes := rfl }
  | _ => exact h

theorem Kin.after_run (h : s.Kin p q t) {cmds : List (Int × Command S)}
    (hc : ∀ nc ∈ cmds, nc.2.charges = false) : (s.run cmds).2.Kin p q (t.run cmds).2 := by
  induction cmds generalizing s t with
  | nil => exact h
  | cons nc rest ih =>
    exact ih (h.after_step nc.1 (hc nc (by simp))) fun nc' hmem => hc nc' (by simp [hmem])

theorem step_start_effect {now : Int} {limits : Limits} {root : Root} {us? : Option Side}
    {us : Side} (hu : (us? <|> root.turn?) = some us)
    (h : (s.step now (.start limits root us?)).1.isOk = true) :
    ∃ adjust' limits' a j, (s.step now (.start limits root us?)).2 =
        { s with allocator := a, adjust := adjust', limits := some limits', journal := j } ∧
      Arming.Effect s.constants s.options.timeSettings us root.plyCount s.adjust
        ⟨s.allocator, limits, s.journal⟩ adjust' ⟨a, limits', j⟩ := by
  rw [step_start _ _ hu] at h ⊢
  rcases ha : s.armed us root.plyCount s.adjust limits with ⟨fault | adjust', limits', s₁⟩ <;>
    rw [ha] at h
  · cases h
  · obtain ⟨a, j, rfl, he⟩ := armed_ok ha
    exact ⟨adjust', limits', a, j, rfl, he⟩

/-- A search under a clock leaves nothing of the searches before it but the node budget. -/
theorem start_same {now : Int} {limits : Limits} {root : Root} {us? : Option Side} {us : Side}
    (hc : s.constants = t.constants) (ho : s.options = t.options)
    (hbudget : s.allocator.availableNodes = t.allocator.availableNodes)
    (hadjust : s.adjust = t.adjust) (hu : (us? <|> root.turn?) = some us)
    (hclock : limits.time.get us ≠ 0)
    (hs : (s.step now (.start limits root us?)).1.isOk = true)
    (ht : (t.step now (.start limits root us?)).1.isOk = true) :
    let s' := (s.step now (.start limits root us?)).2
    let t' := (t.step now (.start limits root us?)).2
    s'.allocator = t'.allocator ∧ s'.adjust = t'.adjust ∧ s'.limits = t'.limits := by
  obtain ⟨adjust₁, limits₁, a, j, hs', he⟩ := step_start_effect hu hs
  obtain ⟨adjust₂, limits₂, b, k, ht', hf⟩ := step_start_effect hu ht
  intro s' t'
  rw [show s' = _ from hs', show t' = _ from ht']
  rw [hc, ho, hadjust] at he
  obtain ⟨r₁, hr₁, hadjust₁, ha⟩ := he.timed hclock
  obtain ⟨r₂, hr₂, hadjust₂, hb⟩ := hf.timed hclock
  have hlimits : limits₁ = limits₂ :=
    he.limits.trans ((Limits.engage_congr hbudget limits us _).trans hf.limits.symm)
  have hr : r₁ = r₂ := by
    rw [show limits₁ = limits₂ from hlimits, hr₂] at hr₁
    cases hr₁
    rfl
  refine ⟨?_, ?_, congrArg some hlimits⟩
  · rw [show a = _ from ha, show b = _ from hb, hr,
      Allocator.engage_congr hbudget limits us t.options.timeSettings.nodesPerMs]
  · rw [show adjust₁ = _ from hadjust₁, show adjust₂ = _ from hadjust₂, hr]

theorem Alike.armed (h : s.Alike p q t) (us : Side) (ply : Int) (adjust : S) (limits : Limits) :
    ∃ result limits' s' t', s.armed us ply adjust limits = (result, limits', s') ∧
      t.armed us ply adjust limits = (result, limits', t') ∧ s'.Alike p q t' := by
  obtain ⟨result, x, y, hxy, hs, ht⟩ := armed_pair (B := Eq) (fun _ => rfl) h.constants h.options
    (congrArg Allocator.availableNodes h.allocator) (congrArg Allocator.optimum h.allocator)
    (congrArg Allocator.maximum h.allocator) h.journal us ply adjust limits
  refine ⟨result, x.limits, _, _, hs, hxy.limits ▸ ht, ?_⟩
  exact { h with allocator := hxy.allocator_eq, journal := hxy.journal }

theorem respects_report (e : Event S) : Respects (Alike p q) (report e) := by
  intro s t h
  rw [run_report, run_report]
  rcases h.journal.write e with ⟨fault, hs, ht⟩ | ⟨j, k, hs, ht, hjk⟩ <;> rw [hs, ht]
  · exact ⟨rfl, h⟩
  · exact ⟨rfl, { h with journal := hjk }⟩

theorem respects_advance (nodes : Int) : Respects (Alike p q) (advance (S := S) nodes) := by
  intro s t h
  unfold advance
  rw [run_get_bind, run_get_bind, h.allocator]
  split
  · have hcharged : Alike p q { s with allocator := s.allocator.charge nodes }
        { t with allocator := t.allocator.charge nodes } :=
      { h with allocator := congrArg (·.charge nodes) h.allocator }
    rw [run_modify_bind, run_modify_bind, run_get_bind, run_get_bind, hcharged.allocator]
    exact respects_report _ _ _ hcharged
  · exact ⟨rfl, h⟩

theorem respects_finish (nodes : Int) (us : Side) :
    Respects (Alike p q) (finish (S := S) nodes us) := by
  intro s t h
  unfold finish
  rw [run_get_bind, run_get_bind, h.limits, h.allocator]
  cases t.limits with
  | none => exact ⟨rfl, h⟩
  | some l =>
    dsimp only
    split
    · exact respects_advance _ _ _ h
    · exact ⟨rfl, h⟩

omit [Scalar S] in
theorem Alike.ask (h : s.Alike p q t) (f : Allocator → Option Limits → Answer S) :
    (.ok (f s.allocator s.limits) : Except SessionFault (Answer S)) =
      .ok (f t.allocator t.limits) := by
  rw [h.allocator, h.limits]

theorem Alike.after_step (h : s.Alike p q t) (now : Int) (c : Command S) :
    (s.step now c).1 = (t.step now c).1 ∧ (s.step now c).2.Alike p q (t.step now c).2 := by
  cases c with
  | start limits root us? =>
    cases hu : us? <|> root.turn? with
    | none =>
      rw [step_start_of_no_side _ _ hu, step_start_of_no_side _ _ hu]
      exact ⟨rfl, h⟩
    | some us =>
      obtain ⟨result, l, s', t', hs, ht, h'⟩ := h.armed us root.plyCount s.adjust limits
      rw [step_start _ _ hu, step_start _ _ hu, ← h.adjust, hs, ht]
      cases result with
      | ok adjust => exact ⟨rfl, { h' with adjust := rfl, limits := rfl }⟩
      | error fault => exact ⟨rfl, { h' with limits := rfl }⟩
  | arm limits us ply adjust =>
    obtain ⟨result, l, s', t', hs, ht, h'⟩ := h.armed us ply adjust limits
    rw [step_arm, step_arm, hs, ht]
    cases result <;> exact ⟨rfl, h'⟩
  | finish nodes us => exact ((respects_finish nodes us).bind fun _ => respects_pure _) s t h
  | advance nodes => exact ((respects_advance nodes).bind fun _ => respects_pure _) s t h
  | setOption name raw =>
    rw [step_setOption, step_setOption, ← h.options]
    cases s.options.set name raw with
    | ok options => exact ⟨rfl, { h with options := rfl }⟩
    | error fault => exact ⟨rfl, h⟩
  | resetOptions => exact ⟨rfl, { h with options := congrArg Options.reset h.options }⟩
  | newGame =>
    exact ⟨rfl, { h with allocator := congrArg Allocator.clear h.allocator, adjust := rfl }⟩
  | clear => exact ⟨rfl, { h with allocator := congrArg Allocator.clear h.allocator }⟩
  -- The other commands only ask.
  | shouldStop nodes =>
    have hask := h.ask fun a l =>
      .truth (l.any Limits.hasClock && decide (a.maximum < a.elapsed now nodes))
    exact ⟨hask, h⟩
  | elapsed nodes => exact ⟨h.ask fun a _ => .count (a.elapsed now nodes), h⟩
  | elapsedTime => exact ⟨h.ask fun a _ => .count (now - a.startTime), h⟩
  | bounds => exact ⟨h.ask fun a _ => .bounds a.optimum a.maximum, h⟩
  | hasClock => exact ⟨h.ask fun _ l => .truth (l.any Limits.hasClock), h⟩

theorem Alike.after_run (h : s.Alike p q t) (cmds : List (Int × Command S)) :
    (s.run cmds).1 = (t.run cmds).1 ∧ (s.run cmds).2.Alike p q (t.run cmds).2 := by
  induction cmds generalizing s t with
  | nil => exact ⟨rfl, h⟩
  | cons nc rest ih =>
    obtain ⟨now, c⟩ := nc
    obtain ⟨hanswer, hnext⟩ := h.after_step now c
    obtain ⟨hanswers, hlast⟩ := ih hnext
    exact ⟨congrArg₂ List.cons hanswer hanswers, hlast⟩

theorem Kin.alike_of_start (h : s.Kin p q t) {now : Int} {limits : Limits} {root : Root}
    {us? : Option Side} {us : Side} (hu : (us? <|> root.turn?) = some us)
    (hclock : limits.time.get us ≠ 0)
    (hs : (s.step now (.start limits root us?)).1.isOk = true) :
    (s.step now (.start limits root us?)).2.Alike p q (t.step now (.start limits root us?)).2 := by
  obtain ⟨hanswer, hkin⟩ := h.after_start now limits root us?
  obtain ⟨ha, hadjust, hlimits⟩ := start_same h.constants h.options h.availableNodes h.adjust hu
    hclock hs (hanswer ▸ hs)
  exact ⟨hkin.constants, hkin.options, ha, hadjust, hlimits, hkin.journal⟩

end Session
end Zeitnot
