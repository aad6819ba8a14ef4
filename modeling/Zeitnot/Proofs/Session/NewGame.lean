import Zeitnot.Proofs.Session.Bounds
import Zeitnot.Proofs.Session.FailedStart
/-!
What a new game keeps of the games before it. From its first search under a clock on, nothing: the
session is then as one that was made for the game. Before that search the mode and the limits of the
last game are still there, so that a search of that game, if it is reported late, is charged to the
budget of the new one; else the budget is unset until a search by nodes sets it.
-/
set_option autoImplicit false

namespace Zeitnot
open Number Stateful

namespace Session
variable {S : Type} [Scalar S]

theorem kin_newGame_fresh (s : Session S) {journal : Journal}
    (h : s.journal.quiet = journal.quiet) :
    s.newGame.Kin s.journal.lines journal.lines (fresh s.constants s.options journal) :=
  ⟨rfl, rfl, rfl, rfl, Journal.parallel_of_quiet h⟩

/-- After any games a new one goes as in a session that was made for it, as soon as a search has
been started under a clock. -/
theorem newGame_like_fresh (s : Session S) (journal : Journal) (now : Int) {limits : Limits}
    {root : Root} {us? : Option Side} {us : Side} (hu : (us? <|> root.turn?) = some us)
    (hclock : limits.time.get us ≠ 0) :
    let old := s.newGame.step now (.start limits root us?)
    let new := (fresh s.constants s.options journal).step now (.start limits root us?)
    (old.1.isOk = true → new.1.isOk = true → old.2.allocator = new.2.allocator ∧
      old.2.adjust = new.2.adjust ∧ old.2.limits = new.2.limits) ∧
    (s.journal.quiet = journal.quiet → old.1 = new.1 ∧ (old.1.isOk = true → ∀ cmds,
      (old.2.run cmds).1 = (new.2.run cmds).1 ∧
      (old.2.run cmds).2.Alike s.journal.lines journal.lines (new.2.run cmds).2)) := by
  intro old new
  constructor
  · intro hold hnew
    exact start_same (s := s.newGame) rfl rfl rfl rfl hu hclock hold hnew
  · intro hquiet
    have hkin := kin_newGame_fresh s hquiet
    refine ⟨(hkin.after_start now limits root us?).1, fun hold cmds => ?_⟩
    exact (hkin.alike_of_start hu hclock hold).after_run cmds

theorem newGame_like_fresh_after_nodes :
    let s := ((fresh Constants.tuned .standard .silent).run
      [(0, .setOption "nodestime" (.int 2)),
        (0, .start (.forSide .white 1000 0 1 0) (.count 0) (some .white)),
        (5, .finish 30 .white)]).2
    let limits : Limits := .forSide .black 500 3 1 9
    let old := s.newGame.step 9 (.start limits (.count 7) (some .black))
    let new := (fresh s.constants s.options .silent).step 9 (.start limits (.count 7) (some .black))
    s.newGame.allocator ≠ .fresh ∧ old.1.isOk = true ∧ new.1.isOk = true ∧
      old.2.allocator = new.2.allocator ∧ old.2.adjust = new.2.adjust ∧
      old.2.limits = new.2.limits ∧ ∀ cmds, (old.2.run cmds).1 = (new.2.run cmds).1 := by
  intro s limits old new
  have hpast : s.newGame.allocator ≠ .fresh := by decide +kernel
  have hold : old.1.isOk = true := by decide +kernel
  have hnew : new.1.isOk = true := by decide +kernel
  have hquiet : s.journal.quiet = Journal.silent.quiet := by decide +kernel
  have hclock : limits.time.get .black ≠ 0 := by decide
  have hside : (some Side.black <|> (Root.count 7).turn?) = some .black := rfl
  clear_value limits s
  obtain ⟨hstate, hlater⟩ := newGame_like_fresh s .silent 9 hside hclock
  obtain ⟨hallocator, hadjust, hlimits⟩ := hstate hold hnew
  refine ⟨hpast, hold, hnew, hallocator, hadjust, hlimits, fun cmds => ?_⟩
  exact ((hlater hquiet).2 hold cmds).1

theorem armed_engaged (s : Session S) (us : Side) (ply : Int) (adjust : S) (limits : Limits) :
    ∃ result limits' a j,
      s.armed us ply adjust limits = (result, limits', { s with allocator := a, journal := j }) ∧
      let engaged := s.allocator.engage limits us s.options.timeSettings.nodesPerMs
      a.availableNodes = engaged.availableNodes ∧ a.useNodes = engaged.useNodes := by
  obtain ⟨optimum, maximum, ha⟩ := Arming.allocator_arm s.constants s.options.timeSettings us ply
    adjust ⟨s.allocator, limits, s.journal⟩
  rcases hr : (Arming.arm s.constants s.options.timeSettings us ply adjust).run.run
    ⟨s.allocator, limits, s.journal⟩ with ⟨result, a, limits', j⟩
  rw [hr] at ha
  have ha : a = _ := ha
  exact ⟨_, _, _, _, armed_of_run hr, by rw [ha], by rw [ha]⟩

theorem step_of_request {s : Session S} {c : Command S} {q : Request S} (now : Int)
    (h : c.request? s = some q) :
    let engaged := s.allocator.engage q.limits q.us s.options.timeSettings.nodesPerMs
    (s.step now c).2.allocator.availableNodes = engaged.availableNodes ∧
      (s.step now c).2.allocator.useNodes = engaged.useNodes := by
  cases c with
  | start limits root us? =>
    cases hu : us? <|> root.turn? with
    | none => simp [Command.request?, hu] at h
    | some us =>
      simp only [Command.request?, hu, Option.map_some, Option.some.injEq] at h
      subst h
      obtain ⟨result, limits', a, j, harmed, hengaged⟩ :=
        armed_engaged s us root.plyCount s.adjust limits
      rw [step_start _ _ hu, harmed]
      cases result <;> exact hengaged
  | arm limits us ply adjust =>
    cases h
    obtain ⟨result, limits', a, j, harmed, hengaged⟩ := armed_engaged s us ply adjust limits
    rw [step_arm, harmed]
    cases result <;> exact hengaged
  | _ => cases h

end Session

section
variable {S : Type}

namespace Command

def reports : Command S → Bool
  | .finish .. => true
  | _ => false

def starts : Command S → Bool
  | .start _ root us? => (us? <|> root.turn?).isSome
  | .arm .. => true
  | _ => false

end Command

def reportsFirst : List (Int × Command S) → Bool
  | [] => false
  | (_, c) :: rest => c.reports || !c.starts && reportsFirst rest

namespace Session

/-- A session whose last search counted its nodes: they are charged when it is reported. -/
def Due (s : Session S) : Prop :=
  ∃ l, s.limits = some l ∧ l.nodesPerMs ≠ 0 ∧ s.allocator.useNodes = true

variable [Scalar S]

def NeverSeeds (s : Session S) : List (Int × Command S) → Prop
  | [] => True
  | (now, c) :: rest =>
    (∀ q, c.request? s = some q → ¬ s.Seeds q.limits q.us) ∧ (s.step now c).2.NeverSeeds rest

omit [Scalar S] in
theorem settled_of_not_due {s : Session S} (h : ¬ s.Due) (nodes : Int) (us : Side) :
    s.settled nodes us = s.allocator := by
  unfold settled
  cases hl : s.limits with
  | none => rfl
  | some l => exact if_neg fun hc => h ⟨l, hl, hc⟩

omit [Scalar S] in
theorem settled_of_due {s : Session S} (h : s.Due) (nodes : Int) (us : Side) :
    ∃ charged, s.settled nodes us = s.allocator.charge charged := by
  obtain ⟨l, hl, hc⟩ := h
  exact ⟨nodes - l.inc.get us, by simp only [settled, hl, if_pos hc]⟩

theorem step_request_unset {s : Session S} {c : Command S} {q : Request S} (now : Int)
    (hunset : s.allocator.availableNodes = Allocator.unseeded) (h : c.request? s = some q)
    (hseeds : ¬ s.Seeds q.limits q.us) :
    (s.step now c).2.allocator.availableNodes = Allocator.unseeded ∧ ¬ (s.step now c).2.Due := by
  obtain ⟨hbudget, hmode⟩ := step_of_request now h
  constructor
  · rw [hbudget, Allocator.availableNodes_engage]
    exact (if_neg hseeds).trans hunset
  · rintro ⟨-, -, -, hnodes⟩
    rw [hmode, Allocator.useNodes_engage] at hnodes
    exact hseeds ⟨hnodes.1, hnodes.2, hunset⟩

theorem step_finish_unset {s : Session S} (now nodes : Int) (us : Side)
    (hunset : s.allocator.availableNodes = Allocator.unseeded) :
    ((s.step now (.finish nodes us)).2.allocator.availableNodes = Allocator.unseeded ↔ ¬ s.Due) ∧
      ((s.step now (.finish nodes us)).2.Due ↔ s.Due) := by
  obtain ⟨j, hj⟩ := step_finish s now nodes us
  rw [hj]
  by_cases hdue : s.Due
  · obtain ⟨charged, hcharge⟩ := settled_of_due hdue nodes us
    rw [hcharge]
    refine ⟨iff_of_false ?_ (not_not.2 hdue), Iff.rfl⟩
    simp only [Allocator.charge, Allocator.unseeded]
    omega
  · rw [settled_of_not_due hdue]
    exact ⟨iff_of_true hunset hdue, Iff.rfl⟩

/-- A budget that is not set, and that the command does not set, is charged only for a search that
is due; and a search is due until another is started. -/
theorem step_unset {s : Session S} (now : Int) {c : Command S}
    (hunset : s.allocator.availableNodes = Allocator.unseeded)
    (hseeds : ∀ q, c.request? s = some q → ¬ s.Seeds q.limits q.us)
    (hadvance : ∀ nodes, c ≠ .advance nodes) :
    ((s.step now c).2.allocator.availableNodes = Allocator.unseeded ↔
        ¬ (s.Due ∧ c.reports = true)) ∧
      ((s.step now c).2.Due ↔ s.Due ∧ c.starts = false) := by
  have hother {s' : Session S} (hreports : c.reports = false) (hstarts : c.starts = false)
      (hbudget : s'.allocator.availableNodes = Allocator.unseeded) (hdue : s'.Due ↔ s.Due) :
      (s'.allocator.availableNodes = Allocator.unseeded ↔ ¬ (s.Due ∧ c.reports = true)) ∧
        (s'.Due ↔ s.Due ∧ c.starts = false) := by
    simp [hreports, hstarts, hbudget, hdue]
  have hrequest {q : Request S} (hreports : c.reports = false) (hstarts : c.starts = true)
      (h : c.request? s = some q) :
      ((s.step now c).2.allocator.availableNodes = Allocator.unseeded ↔
          ¬ (s.Due ∧ c.reports = true)) ∧
        ((s.step now c).2.Due ↔ s.Due ∧ c.starts = false) := by
    obtain ⟨hbudget, hdue⟩ := step_request_unset now hunset h (hseeds q h)
    simp [hreports, hstarts, hbudget, hdue]
  cases c with
  | start limits root us? =>
    cases hu : us? <|> root.turn? with
    | none =>
      rw [step_start_of_no_side _ _ hu]
      exact hother rfl (by simp [Command.starts, hu]) hunset Iff.rfl
    | some us =>
      exact hrequest rfl (by simp [Command.starts, hu]) (by simp only [Command.request?, hu]; rfl)
  | arm limits us ply adjust => exact hrequest rfl rfl rfl
  | finish nodes us =>
    obtain ⟨hbudget, hdue⟩ := step_finish_unset now nodes us hunset
    simp [hbudget, hdue, Command.reports, Command.starts]
  | advance nodes => exact absurd rfl (hadvance nodes)
  | setOption name raw =>
    rw [step_setOption]
    cases s.options.set name raw <;> exact hother rfl rfl hunset Iff.rfl
  | newGame => exact hother rfl rfl rfl Iff.rfl
  | clear => exact hother rfl rfl rfl Iff.rfl
  | _ => exact hother rfl rfl hunset Iff.rfl

theorem run_unset {s : Session S} {cmds : List (Int × Command S)}
    (hunset : s.allocator.availableNodes = Allocator.unseeded) (hnever : s.NeverSeeds cmds)
    (hadvance : ∀ nc ∈ cmds, ∀ nodes, nc.2 ≠ .advance nodes) :
    (∀ before, before <+: cmds →
        (s.run before).2.allocator.availableNodes = Allocator.unseeded) ↔
      ¬ (s.Due ∧ reportsFirst cmds = true) := by
  induction cmds generalizing s with
  | nil => simpa [reportsFirst, run] using hunset
  | cons nc rest ih =>
    obtain ⟨now, c⟩ := nc
    obtain ⟨hseeds, hrest⟩ := hnever
    -- Once the budget is set by a charge nothing is said of what follows; until then the rest of
    -- the run starts from a session that is due just as long as none has been started.
    obtain ⟨hbudget, hdue⟩ := step_unset now hunset hseeds (hadvance _ List.mem_cons_self)
    have hadvance' := fun nc hmem => hadvance nc (List.mem_cons_of_mem _ hmem)
    constructor
    · rintro hall ⟨hs, hfirst⟩
      have hkept := hall [(now, c)] (by simp)
      have hreports : c.reports = false := by
        simpa [hs] using hbudget.1 hkept
      simp only [reportsFirst, hreports, Bool.false_or, Bool.and_eq_true,
        Bool.not_eq_true'] at hfirst
      obtain ⟨hstarts, hfirst⟩ := hfirst
      have hall' : ∀ before, before <+: rest →
          ((s.step now c).2.run before).2.allocator.availableNodes = Allocator.unseeded :=
        fun before hbefore => hall ((now, c) :: before) ((List.prefix_cons_inj _).2 hbefore)
      exact (ih hkept hrest hadvance').1 hall' ⟨hdue.2 ⟨hs, hstarts⟩, hfirst⟩
    · intro hnot before hbefore
      rcases List.prefix_cons_iff.1 hbefore with rfl | ⟨before', rfl, hbefore'⟩
      · exact hunset
      · have hkept : (s.step now c).2.allocator.availableNodes = Allocator.unseeded :=
          hbudget.2 fun h => hnot ⟨h.1, by simp [reportsFirst, h.2]⟩
        refine (ih hkept hrest hadvance').2 (fun h => ?_) before' hbefore'
        obtain ⟨hs, hstarts⟩ := hdue.1 h.1
        exact hnot ⟨hs, by simp [reportsFirst, hstarts, h.2]⟩

/-- After a new game, searches that set no budget leave it unset, and the first one that sets it
takes it from its own clock: unless a search by nodes of the game before is reported before any
search of the new game is started. -/
theorem budget_unset_until_set (s : Session S) (cmds : List (Int × Command S))
    (hnever : s.newGame.NeverSeeds cmds)
    (hadvance : ∀ nc ∈ cmds, ∀ nodes, nc.2 ≠ .advance nodes) :
    let after := (s.newGame.run cmds).2
    ((∀ before, before <+: cmds →
        (s.newGame.run before).2.allocator.availableNodes = Allocator.unseeded) ↔
      ¬ (s.Due ∧ reportsFirst cmds = true)) ∧
    (¬ (s.Due ∧ reportsFirst cmds = true) → ∀ now limits root us? us,
      (us? <|> root.turn?) = some us → limits.time.get us ≠ 0 →
      after.options.timeSettings.nodesPerMs ≠ 0 →
      (after.step now (.start limits root us?)).2.allocator.availableNodes =
        after.options.timeSettings.nodesPerMs * limits.time.get us) := by
  intro after
  have hrun := run_unset (s := s.newGame) rfl hnever hadvance
  refine ⟨hrun, fun hnot now limits root us? us hu hclock hnodes => ?_⟩
  have hunset : after.allocator.availableNodes = Allocator.unseeded :=
    hrun.2 hnot cmds List.prefix_rfl
  have hrequest : (Command.start limits root us?).request? after =
      some ⟨limits, us, root.plyCount, after.adjust⟩ := by simp only [Command.request?, hu]; rfl
  obtain ⟨hbudget, -⟩ := step_of_request now hrequest
  rw [hbudget, Allocator.availableNodes_engage]
  exact if_pos ⟨hclock, hnodes, hunset⟩

theorem budget_unset_until_second_search :
    let s := ((fresh Constants.tuned .standard .silent).run
      [(0, .setOption "nodestime" (.int 1)),
        (0, .start (.forSide .white 1000 0 1 0) (.count 0) (some .white))]).2
    let cmds : List (Int × Command Float) :=
      [(7, .start (.unlimited 7) (.count 0) (some .white)), (8, .finish 5 .white)]
    let after := (s.newGame.run cmds).2
    let limits : Limits := .forSide .white 1000 0 1 9
    s.newGame.allocator.useNodes = true ∧
      (∀ before, before <+: cmds →
        (s.newGame.run before).2.allocator.availableNodes = Allocator.unseeded) ∧
      (after.step 9 (.start limits (.count 0) (some .white))).2.allocator.availableNodes =
        1000 := by
  intro s cmds after limits
  have hmode : s.newGame.allocator.useNodes = true := by decide +kernel
  have hnodes : after.options.timeSettings.nodesPerMs = 1 := by decide +kernel
  have hnever : s.newGame.NeverSeeds cmds := by
    refine ⟨?_, ?_, trivial⟩ <;> rintro q hq hseeds <;> cases hq
    exact hseeds.1 rfl
  have hadvance : ∀ nc ∈ cmds, ∀ nodes, nc.2 ≠ .advance nodes := by simp [cmds]
  have hfirst : ¬ (s.Due ∧ reportsFirst cmds = true) := fun h => by cases h.2
  clear_value s
  obtain ⟨hunset, hset⟩ := budget_unset_until_set s cmds hnever hadvance
  have hseeded := hset hfirst 9 limits (.count 0) (some .white) .white rfl
    (by decide) (hnodes.trans_ne (by decide))
  refine ⟨hmode, hunset.2 hfirst, hseeded.trans ?_⟩
  rw [show (s.newGame.run cmds).2.options.timeSettings.nodesPerMs = 1 from hnodes]
  rfl

/-- A search that is reported after the new game uses up the budget before it is set, and the next
search goes on with none. -/
theorem late_report_uses_up_budget :
    let start : Command Float := .start (.forSide .white 1000 0 1 0) (.count 0) (some .white)
    let s := ((fresh Constants.tuned .standard .silent).run
      [(0, .setOption "nodestime" (.int 1)), (0, start)]).2
    let reported := (s.newGame.step 5 (.finish 5 .white)).2
    s.newGame.allocator.availableNodes = Allocator.unseeded ∧
      reported.allocator.availableNodes ≠ Allocator.unseeded ∧
      (reported.step 6 start).2.allocator.availableNodes = 0 ∧
      (s.newGame.step 6 start).2.allocator.availableNodes = 1000 := by
  decide +kernel

end Session
end
end Zeitnot
