import Zeitnot.Proofs.Options.History
import Zeitnot.Proofs.Session.Bounds
import Zeitnot.Proofs.Session.FailedStart
import Zeitnot.Proofs.Simulation.Course
/-!
What the moves of a simulated game spend: at most a quarter of the clock that the allocator goes by,
with the other side's time or without. That clock is the one of the game only while time is not
counted in nodes. Nodes are never charged in a simulation, so they stay as many as the initial time
stands for, and what is taken from the clock is their number and not their time.
-/
set_option autoImplicit false

namespace Zeitnot
open Number Stateful

section
variable {S : Type} [Scalar S] {c : Constants S}

def CapsAtFifth (c : Constants S) (time : Int) : Prop :=
  ∀ share, shareOf c.optimumCap time = .ok share → 5 * share ≤ time

instance (c : Constants S) (time : Int) : Decidable (CapsAtFifth c time) :=
  match h : shareOf c.optimumCap time with
  | .ok share =>
    decidable_of_iff (5 * share ≤ time)
      ⟨fun hle _ hs => Except.ok.inj (h.symm.trans hs) ▸ hle, fun hcap => hcap share h⟩
  | .error _ => isTrue fun _ hs => nomatch h.symm.trans hs

namespace Bounded
variable {settings : TimeSettings} {time aim optimum maximum : Int} {scale : S}

theorem aim_le_fifth (h : Bounded c settings time scale aim optimum maximum)
    (hcap : CapsAtFifth c time) : aim ≤ max 1 (time / 5) := by
  obtain ⟨share, hshare, haim⟩ := h.aim_le_share
  have hfifth := hcap share hshare
  omega

theorem optimum_le_quarter (h : Bounded c settings time scale aim optimum maximum)
    (hcap : CapsAtFifth c time) (hdivisor : c.ponderDivisor = 4) :
    1 ≤ optimum ∧ optimum ≤ max 1 (time / 4) := by
  have hone := h.one_le
  have hfifth := h.aim_le_fifth hcap
  have hoptimum := h.optimum_eq
  rw [hdivisor, Int.fdiv_eq_ediv_of_nonneg _ (by decide)] at hoptimum
  split at hoptimum <;> omega

end Bounded
end

theorem Limits.time_engage {l : Limits} {us : Side} (ht : l.time.get us ≠ 0) (a : Allocator)
    (nodesPerMs : Int) :
    (l.engage a us nodesPerMs).time.get us =
      if nodesPerMs = 0 then l.time.get us else (a.engage l us nodesPerMs).availableNodes := by
  by_cases hn : nodesPerMs = 0
  · rw [engage, if_neg fun h => h.2 hn, if_pos hn]
  · rw [engage, if_pos ⟨ht, hn⟩, if_neg hn, inNodes, PerSide.get_set]

namespace Simulation
variable {S : Type} [Scalar S]

@[simp] theorem Plan.time_limits (p : Plan) (k : Nat) (clock : Int) :
    (p.limits k clock).time.get p.side = clock := PerSide.get_set _ _ _

/-- What the allocator takes for the clock of a simulated game: the clock, or the nodes that the
initial time stands for. -/
def Plan.clockOf (p : Plan) (settings : TimeSettings) (clock : Int) : Int :=
  if settings.nodesPerMs = 0 then clock else settings.nodesPerMs * p.initial

/-- A session before a move of a simulated game: as at the start, but for a node budget that has
been set from the initial time. -/
structure Ready (p : Plan) (c : Constants S) (o : Options) (clock : Int) (s : Session S) :
    Prop where
  constants : s.constants = c
  options : s.options = o
  budget : o.timeSettings.nodesPerMs ≠ 0 →
    s.allocator.availableNodes = Allocator.unseeded ∧ clock = p.initial ∨
      s.allocator.availableNodes = o.timeSettings.nodesPerMs * p.initial

section
variable {p : Plan} {c : Constants S} {o : Options} {k : Nat} {clock : Int} {s s' : Session S}
  {m : Record}

theorem ready_fresh (p : Plan) (c : Constants S) (o : Options) :
    Ready p c o p.initial (Session.fresh c o .silent) :=
  ⟨rfl, rfl, fun _ => .inl ⟨rfl, rfl⟩⟩

omit [Scalar S] in
theorem Ready.budget_engage (h : Ready p c o clock s) (hclock : clock ≠ 0)
    (hnodes : o.timeSettings.nodesPerMs ≠ 0) (hpos : 0 < o.timeSettings.nodesPerMs * p.initial) :
    (s.allocator.engage (p.limits k clock) p.side o.timeSettings.nodesPerMs).availableNodes =
      o.timeSettings.nodesPerMs * p.initial := by
  rw [Allocator.availableNodes_engage, Plan.time_limits]
  obtain ⟨hunset, rfl⟩ | hset := h.budget hnodes
  · rw [if_pos ⟨hclock, hnodes, hunset⟩]
  · rw [if_neg, hset]
    rintro ⟨-, -, hunset⟩
    rw [hset, Allocator.unseeded] at hunset
    omega

theorem Ready.after (h : Ready p c o clock s) (hstarts : Starts p k clock s s' m)
    (hclock : clock ≠ 0)
    (hpos : o.timeSettings.nodesPerMs ≠ 0 → 0 < o.timeSettings.nodesPerMs * p.initial) :
    (∀ next, Ready p c o next s') ∧ ∃ scale aim, Bounded c o.timeSettings
      (p.clockOf o.timeSettings clock) scale aim m.optimum m.maximum := by
  obtain ⟨us, adjust, limits, a, j, hu, rfl, heffect⟩ := Session.start_ok hstarts.run
  obtain rfl : p.side = us := Option.some.inj hu
  rw [h.constants, h.options] at heffect
  have hlimits : limits = _ := heffect.limits
  obtain ⟨r, hr, -, ha⟩ := heffect.timed (by rwa [Plan.time_limits])
  have ha : a = _ := ha
  have hbudget := fun hnodes => h.budget_engage (k := k) hclock hnodes (hpos hnodes)
  refine ⟨fun next => ⟨h.constants, h.options, fun hnodes => .inr ?_⟩, r.scales.max, r.aim, ?_⟩
  · rw [ha]
    exact hbudget hnodes
  · have hown : limits.time.get p.side = p.clockOf o.timeSettings clock := by
      rw [hlimits, Limits.time_engage (by rwa [Plan.time_limits]), Plan.time_limits, Plan.clockOf]
      split <;> rename_i hnodes
      · rfl
      · exact hbudget hnodes
    have hbounds := allocation_bounded hr
    rw [hown] at hbounds
    simpa only [hstarts.record, ha] using hbounds

end

/-- No move of a simulated game is allotted more than a quarter of the clock that the allocator goes
by: of the clock before the move, or, if time is counted in nodes, of all the nodes of the game. -/
theorem optimum_le_quarter_of_clock {c : Constants S} {p : Plan} {o : Options} {r : Report S}
    (hdivisor : c.ponderDivisor = 4) (hnodes : 0 ≤ o.timeSettings.nodesPerMs)
    (hinitial : 0 < p.initial) (hincrement : 0 ≤ p.increment)
    (hcap : ∀ m ∈ r.records, CapsAtFifth c (p.clockOf o.timeSettings m.clockBefore))
    (h : simulate c p (some o) = .ok r) :
    ∀ m ∈ r.records, 0 < m.clockBefore ∧ 1 ≤ m.optimum ∧
      (o.timeSettings.nodesPerMs = 0 → m.optimum ≤ max 1 (m.clockBefore / 4)) ∧
      (o.timeSettings.nodesPerMs ≠ 0 →
        m.optimum ≤ max 1 (o.timeSettings.nodesPerMs * p.initial / 4)) := by
  obtain ⟨o', ho, hplayed⟩ := simulate_ok h
  obtain rfl : o = o' := by simpa using ho
  have hpos : o.timeSettings.nodesPerMs ≠ 0 → 0 < o.timeSettings.nodesPerMs * p.initial :=
    fun hne => Int.mul_pos (by omega) hinitial
  have hgain : ∀ k, 0 ≤ p.gain k := by
    intro k
    unfold Plan.gain
    split <;> omega
  refine hplayed.forall_records (I := fun _ clock s => 0 < clock ∧ Ready p c o clock s)
    ⟨hinitial, ready_fresh p c o⟩ fun {k clock s s' m} hm ⟨hclock, hready⟩ hstarts => ?_
  obtain ⟨hnext, scale, aim, hbounds⟩ := hready.after hstarts hclock.ne' hpos
  have hbefore : m.clockBefore = clock := by rw [hstarts.record]
  have hquarter := hbounds.optimum_le_quarter (hbefore ▸ hcap m hm) hdivisor
  refine ⟨⟨by omega, hquarter.1, fun hwall => ?_, fun hcount => ?_⟩, fun hleft => ?_⟩
  · rw [hbefore]
    simpa only [Plan.clockOf, if_pos hwall] using hquarter.2
  · simpa only [Plan.clockOf, if_neg hcount] using hquarter.2
  · exact ⟨by have := hgain k; omega, hnext _⟩

theorem optimum_le_quarter_of_clock_with_ponder :
    ∃ o r, Options.standard.set "Ponder" (.bool true) = .ok o ∧
      simulate Constants.tuned ⟨1000, 0, 2, 1, 10, 0⟩ (some o) = .ok r ∧
      r.records = [⟨0, 1000, 250, 282⟩, ⟨2, 1740, 435, 490⟩] ∧
      ∀ m ∈ r.records, 1 ≤ m.optimum ∧ m.optimum ≤ max 1 (m.clockBefore / 4) := by
  have hcourse : (Options.standard.set "Ponder" (.bool true)).toOption.bind (fun o =>
      (simulate Constants.tuned ⟨1000, 0, 2, 1, 10, 0⟩ (some o)).toOption.map fun r =>
        (o.timeSettings.nodesPerMs, r.records)) =
      some (0, [⟨0, 1000, 250, 282⟩, ⟨2, 1740, 435, 490⟩]) := by
    decide +kernel
  obtain ⟨o, ho, hcourse⟩ := exists_of_toOption_bind hcourse
  obtain ⟨r, hr, hcourse⟩ := exists_of_toOption_map hcourse
  obtain ⟨hwall, hrecords⟩ := Prod.mk.inj hcourse
  have hcap : ∀ m ∈ r.records, CapsAtFifth Constants.tuned
      (Plan.clockOf ⟨1000, 0, 2, 1, 10, 0⟩ o.timeSettings m.clockBefore) := by
    simp only [Plan.clockOf, hwall, if_true, hrecords]
    decide +kernel
  have hspent := optimum_le_quarter_of_clock rfl hwall.ge (by decide) (by decide) hcap hr
  refine ⟨o, r, ho, hr, hrecords, fun m hm => ?_⟩
  obtain ⟨-, hone, hquarter, -⟩ := hspent m hm
  exact ⟨hone, hquarter hwall⟩

/-- A fifth of the nodes that a second stands for is taken for milliseconds. -/
theorem quarter_of_clock_exceeded_by_nodes :
    ∃ o r, Options.standard.set "nodestime" (.int 100) = .ok o ∧
      simulate Constants.tuned ⟨1000, 0, 1, 1, 10, 0⟩ (some o) = .ok r ∧
      CapsAtFifth Constants.tuned 1000 ∧ CapsAtFifth Constants.tuned (100 * 1000) ∧
      ∃ m ∈ r.records, m.clockBefore = 1000 ∧ m.optimum = 20000 ∧
        ¬ m.optimum ≤ max 1 (m.clockBefore / 4) := by
  have hcourse : (Options.standard.set "nodestime" (.int 100)).toOption.bind (fun o =>
      (simulate Constants.tuned ⟨1000, 0, 1, 1, 10, 0⟩ (some o)).toOption.map Report.records) =
      some [⟨0, 1000, 20000, 28200⟩] := by
    decide +kernel
  obtain ⟨o, ho, hcourse⟩ := exists_of_toOption_bind hcourse
  obtain ⟨r, hr, hrecords⟩ := exists_of_toOption_map hcourse
  refine ⟨o, r, ho, hr, by decide +kernel, by decide +kernel, ⟨0, 1000, 20000, 28200⟩, ?_⟩
  rw [hrecords]
  decide

end Simulation
end Zeitnot
