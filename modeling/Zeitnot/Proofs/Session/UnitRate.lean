import Zeitnot.Proofs.Clock.UnitRate
import Zeitnot.Proofs.Session.NewGame
/-!
Whole games at one node a millisecond. The budget goes down by the nodes of a search and up by its
increment, as a clock does by the milliseconds; so a game of node budgets is played like the game of
these clocks, search by search, also where a search fails to start.
-/
set_option autoImplicit false

namespace Zeitnot
open Number Stateful

namespace Round

def left (r : Round) (b : Int) : Int := max 0 (b - r.nodes + r.inc)

/-- The round `w` is the round `r`, but with `b` on the clock of its side. -/
structure OnClock (b : Int) (r w : Round) : Prop where
  us : w.us = r.us
  ply : w.root.plyCount = r.root.plyCount
  time : w.time = b
  inc : w.inc = r.inc
  movesToGo : w.limits.movesToGo = r.limits.movesToGo

end Round

/-- The rounds `ws` are the rounds `rs`, but with what is left of a clock of `b` on the clock of
each. The clocks stay positive, and every round of `rs` has one. -/
inductive OnClocks : Int → List Round → List Round → Prop
  | nil {b : Int} : OnClocks b [] []
  | cons {b : Int} {r w : Round} {rs ws : List Round} (positive : 0 < b) (clock : r.time ≠ 0)
      (first : r.OnClock b w) (rest : OnClocks (r.left b) rs ws) : OnClocks b (r :: rs) (w :: ws)

namespace Session
variable {S : Type} [Scalar S]

theorem play_of_run {s : Session S} {r : Round} {result : Except Fault S} {after : Armed}
    (h : (Arming.arm s.constants s.options.timeSettings r.us r.root.plyCount s.adjust).run.run
      ⟨s.allocator, r.limits, s.journal⟩ = (result, after)) :
    let adjust := result.toOption.getD s.adjust
    let started : Session S := { s with
      allocator := after.allocator
      adjust
      limits := some after.limits
      journal := after.journal }
    ∃ j, s.play r =
        (⟨(result.map fun _ => ()).mapError .arithmetic, after.allocator.optimum,
          after.allocator.maximum, adjust⟩,
        { started with allocator := started.settled r.nodes r.us, journal := j }) ∧
      j.quiet = after.journal.quiet := by
  intro adjust started
  obtain ⟨j, hj, hquiet⟩ := run_finish r.nodes r.us started
  refine ⟨j, ?_, hquiet⟩
  have hstart : (start r.limits r.root r.given).run.run s =
      ((result.map fun _ => ()).mapError .arithmetic, started) := by
    rw [run_start r.side, armed_of_run h]
    cases result <;> rfl
  simp only [play, hstart, hj]
  rfl

omit [Scalar S] in
theorem availableNodes_settled {s : Session S} {r : Round} {b : Int}
    (hlimits : s.limits = some (r.limits.inNodes r.us b 1))
    (hbudget : s.allocator.availableNodes = b) (hmode : s.allocator.useNodes = true) :
    (s.settled r.nodes r.us).availableNodes = r.left b := by
  simp only [settled, hlimits, hmode, Limits.inNodes, PerSide.get_set, ne_eq, one_ne_zero,
    not_false_eq_true, and_self, if_true, Allocator.charge, hbudget, Round.left, Round.inc, mul_one]
  rw [show b - (r.nodes - r.limits.inc.get r.us) = b - r.nodes + r.limits.inc.get r.us by ring]

/-- Two sessions with the same past, of which the one counts a node for every millisecond of the
other. -/
structure Paced (s t : Session S) : Prop where
  constants : s.constants = t.constants
  settings : s.options.timeSettings = t.options.timeSettings.atUnitRate
  wall : t.options.timeSettings.nodesPerMs = 0
  adjust : s.adjust = t.adjust
  optimum : s.allocator.optimum = t.allocator.optimum
  maximum : s.allocator.maximum = t.allocator.maximum
  quiet : s.journal.quiet = t.journal.quiet

namespace Paced
variable {s t : Session S} {r w : Round} {b : Int}

omit [Scalar S] in
theorem onPar (h : s.Paced t) (hb : 0 < b) (hclock : r.time ≠ 0) (hw : r.OnClock b w)
    (hfunded : s.allocator.Funded r.time b) :
    Armed.OnPar r.us b ⟨s.allocator, r.limits, s.journal⟩ ⟨t.allocator, w.limits, t.journal⟩ where
  positive := hb
  clock := hclock
  funded := hfunded
  time := by rw [← hw.us]; exact hw.time
  inc := by rw [← Round.inc, ← hw.inc, Round.inc, hw.us]
  movesToGo := hw.movesToGo.symm
  quiet := h.quiet

theorem play (h : s.Paced t) (hb : 0 < b) (hclock : r.time ≠ 0) (hw : r.OnClock b w)
    (hfunded : s.allocator.Funded r.time b) :
    (s.play r).1 = (t.play w).1 ∧ (s.play r).2.Paced (t.play w).2 ∧
      (s.play r).2.allocator.availableNodes = r.left b := by
  have hpar := h.onPar hb hclock hw hfunded
  obtain ⟨hresult, hoptimum, hmaximum, hquiet⟩ := Arming.arm_atUnitRate (B := Eq) (fun _ => rfl)
    s.constants h.wall r.root.plyCount s.adjust hpar h.optimum h.maximum
  obtain ⟨hlimits, hbudget, hmode⟩ := Arming.engaged_atUnitRate s.constants t.options.timeSettings
    r.root.plyCount s.adjust hpar
  rcases hx : (Arming.arm s.constants t.options.timeSettings.atUnitRate r.us r.root.plyCount
    s.adjust).run.run ⟨s.allocator, r.limits, s.journal⟩ with ⟨result, x⟩
  rcases hy : (Arming.arm s.constants t.options.timeSettings r.us r.root.plyCount
    s.adjust).run.run ⟨t.allocator, w.limits, t.journal⟩ with ⟨result', y⟩
  simp only [hx, hy] at hresult hoptimum hmaximum hquiet hlimits hbudget hmode
  subst hresult
  rw [← h.settings] at hx
  rw [h.constants, h.adjust, ← hw.us, ← hw.ply] at hy
  obtain ⟨j, hs, hj⟩ := play_of_run hx
  obtain ⟨k, ht, hk⟩ := play_of_run hy
  rw [hs, ht]
  -- What is reported of the searches changes a budget and the journals, never the bounds.
  refine ⟨by rw [hoptimum, hmaximum, h.adjust], ?_, availableNodes_settled ?_ hbudget hmode⟩
  · exact {
      constants := h.constants
      settings := h.settings
      wall := h.wall
      adjust := by rw [h.adjust]
      optimum := by rw [(settled_bounds _ _ _).1, (settled_bounds _ _ _).1, hoptimum]
      maximum := by rw [(settled_bounds _ _ _).2, (settled_bounds _ _ _).2, hmaximum]
      quiet := hj.trans (hquiet.trans hk.symm) }
  · rw [hlimits]

theorem game {rs ws : List Round} (h : s.Paced t) (hws : OnClocks b rs ws)
    (hfunded : ∀ r ∈ rs.head?, s.allocator.Funded r.time b) :
    (s.game rs).1 = (t.game ws).1 ∧ (s.game rs).2.Paced (t.game ws).2 := by
  induction hws generalizing s t with
  | nil => exact ⟨rfl, h⟩
  | cons hb hclock hfirst _ ih =>
    -- From the second round on there is a budget, and its clock does not matter any more.
    obtain ⟨hseen, hnext, hleft⟩ := h.play hb hclock hfirst (hfunded _ rfl)
    obtain ⟨hlater, hlast⟩ := ih hnext fun r _ => .inl hleft
    exact ⟨congrArg₂ List.cons hseen hlater, hlast⟩

end Paced

/-- At one node a millisecond a budget is a clock: of one search, which is armed with the same
result and the same bounds, and of a game, whose searches go as they do on clocks that lose a
millisecond with every node and gain the increments. A search that fails to be armed may keep the
bounds that it found. -/
theorem unit_rate_like_clock (S : Type) [Scalar S] :
    (∀ (c : Constants S) (settings : TimeSettings) (us : Side) (ply : Int) (adjust : S) (b : Int)
        (s t : Armed), settings.nodesPerMs = 0 → s.OnPar us b t →
      let x := (Arming.arm c settings.atUnitRate us ply adjust).run.run s
      let y := (Arming.arm c settings us ply adjust).run.run t
      x.1 = y.1 ∧
        (x.1.isOk = true ∨ s.allocator.optimum = t.allocator.optimum ∧
            s.allocator.maximum = t.allocator.maximum →
          x.2.allocator.optimum = y.2.allocator.optimum ∧
            x.2.allocator.maximum = y.2.allocator.maximum)) ∧
    ∀ (s t : Session S) (b : Int) (rs ws : List Round), s.Paced t → OnClocks b rs ws →
      (∀ r ∈ rs.head?, s.allocator.Funded r.time b) → (s.game rs).1 = (t.game ws).1 := by
  constructor
  · intro c settings us ply adjust b s t hwall hpar x y
    have hresult : x.1 = y.1 :=
      (Arming.arm_atUnitRate (B := fun _ _ => True) (fun _ => trivial) c hwall ply adjust hpar
        trivial trivial).1
    refine ⟨hresult, ?_⟩
    rintro (hok | ⟨hoptimum, hmaximum⟩)
    · obtain ⟨adjust', hx⟩ := exists_of_isOk hok
      exact Arming.bounds_atUnitRate hwall hpar (Prod.ext hx rfl)
        (Prod.ext (hresult.symm.trans hx) rfl)
    · obtain ⟨-, hoptimum', hmaximum', -⟩ := Arming.arm_atUnitRate (B := Eq) (fun _ => rfl) c hwall
        ply adjust hpar hoptimum hmaximum
      exact ⟨hoptimum', hmaximum'⟩
  · intro s t b rs ws hpaced hws hfunded
    exact (hpaced.game hws hfunded).1

theorem unit_rate_like_clock_of_second :
    let options := (Options.standard.set "nodestime" (.int 1)).toOption.getD .standard
    let s : Session Float := fresh Constants.tuned options .silent
    let t : Session Float := fresh Constants.tuned .standard .silent
    let round (time nodes : Int) : Round :=
      ⟨.forSide .white time 5 1 0, .count 0, some .white, .white, rfl, nodes⟩
    let seen := (s.game [round 1000 30, round 1 4]).1
    let settings : TimeSettings := ⟨10, 0, true⟩
    let nodes : Armed := ⟨⟨5, 6, 7, 90, false⟩, .forSide .white 1000 5 1 0, .silent⟩
    let clock : Armed := ⟨.fresh, .forSide .white 90 5 1 3, .silent⟩
    (seen.map Started.optimum = [200, 195] ∧
      seen = (t.game [round 1000 30, round 975 0]).1) ∧
    let x := (Arming.arm Constants.tuned settings.atUnitRate .white 12 0.5).run.run nodes
    let y := (Arming.arm Constants.tuned settings .white 12 0.5).run.run clock
    x.1.isOk = true ∧ x.1 = y.1 ∧ x.2.allocator.optimum = y.2.allocator.optimum := by
  intro options s t round seen settings nodes clock
  obtain ⟨hsearch, hgame⟩ := unit_rate_like_clock Float
  have hsettings : options.timeSettings = Options.standard.timeSettings.atUnitRate := by
    decide +kernel
  have hpaced : s.Paced t := ⟨rfl, hsettings, by decide +kernel, rfl, rfl, rfl, rfl⟩
  have hclocks : OnClocks 1000 [round 1000 30, round 1 4] [round 1000 30, round 975 0] :=
    .cons (by decide) (by decide) ⟨rfl, rfl, rfl, rfl, rfl⟩
      (.cons (by decide) (by decide) ⟨rfl, rfl, rfl, rfl, rfl⟩ .nil)
  have hfunded : ∀ r ∈ [round 1000 30, round 1 4].head?, s.allocator.Funded r.time 1000 := by
    rintro r ⟨⟩
    exact .inr ⟨rfl, rfl⟩
  have hoptima : seen.map Started.optimum = [200, 195] := by decide +kernel
  have hpar : nodes.OnPar .white 90 clock :=
    ⟨by decide, by decide, .inl rfl, rfl, rfl, rfl, rfl⟩
  have hok : ((Arming.arm Constants.tuned settings.atUnitRate .white 12 0.5).run.run nodes).1.isOk =
      true := by decide +kernel
  obtain ⟨hresult, hbounds⟩ :=
    hsearch Constants.tuned settings .white 12 0.5 90 nodes clock rfl hpar
  exact ⟨⟨hoptima, hgame s t 1000 _ _ hpaced hclocks hfunded⟩, hok, hresult, (hbounds (.inl hok)).1⟩

end Session
end Zeitnot
