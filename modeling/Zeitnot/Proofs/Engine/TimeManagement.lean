import Zeitnot.Proofs.Engine.Thinking
import Zeitnot.Proofs.Search.Checkpoints
import Zeitnot.Proofs.Session.Bounds
/-!
When a search that is given a clock is held to its maximum: always, unless it is to be counted in
nodes that are used up, and the other side has no clock. The limits then show no clock at all, and
nothing but the depth ends the search.
-/
set_option autoImplicit false

namespace Zeitnot
open Number Search Stateful

theorem Limits.hasClock_iff (l : Limits) (us : Side) :
    l.hasClock = true ↔ l.time.get us ≠ 0 ∨ l.time.get us.other ≠ 0 := by
  cases us <;> simp [hasClock, PerSide.get, Side.other, or_comm]

@[simp] theorem Limits.infinite_engage (l : Limits) (a : Allocator) (us : Side)
    (nodesPerMs : Int) : (l.engage a us nodesPerMs).infinite = l.infinite := by
  unfold engage; split <;> rfl

@[simp] theorem Limits.nodes_engage (l : Limits) (a : Allocator) (us : Side)
    (nodesPerMs : Int) : (l.engage a us nodesPerMs).nodes = l.nodes := by
  unfold engage; split <;> rfl

@[simp] theorem Limits.moveTime_engage (l : Limits) (a : Allocator) (us : Side)
    (nodesPerMs : Int) : (l.engage a us nodesPerMs).moveTime = l.moveTime := by
  unfold engage; split <;> rfl

theorem Allocator.availableNodes_seed_eq_zero {a : Allocator} {rate time : Int} (hr : rate ≠ 0)
    (ht : time ≠ 0) : (a.seed rate time).availableNodes = 0 ↔ a.availableNodes = 0 := by
  unfold seed
  split <;> rename_i h
  · simp [h, unseeded, hr, ht]
  · rfl

namespace Session
variable {S : Type}

/-- A session whose node budget is used up, at a search by nodes in which only one side has a
clock. -/
def Exhausted (s : Session S) (limits : Limits) (us : Side) : Prop :=
  s.options.timeSettings.nodesPerMs ≠ 0 ∧ s.allocator.availableNodes = 0 ∧
    limits.time.get us.other = 0

theorem hasClock_engage {s : Session S} {limits : Limits} {us : Side}
    (ht : limits.time.get us ≠ 0) :
    (limits.engage s.allocator us s.options.timeSettings.nodesPerMs).hasClock = true ↔
      ¬ s.Exhausted limits us := by
  by_cases hr : s.options.timeSettings.nodesPerMs = 0
  · simp [Limits.engage, Exhausted, hr, Limits.hasClock_of_time ht]
  · have hseed := Allocator.availableNodes_seed_eq_zero
      (a := { s.allocator with startTime := limits.startTime, useNodes := true }) hr ht
    rw [Limits.hasClock_iff _ us, Limits.engage, if_pos ⟨ht, hr⟩, Allocator.engage,
      if_pos ⟨ht, hr⟩]
    simp only [Limits.inNodes, PerSide.get_set, PerSide.get_other_set, Exhausted, ne_eq, hseed, hr,
      not_false_eq_true, true_and, not_and_or]

variable [Scalar S]

structure Clocked (s : Session S) (l : Limits) (us : Side) (s' : Session S) : Prop where
  limits : s'.limits = some (l.engage s.allocator us s.options.timeSettings.nodesPerMs)
  hasClock : s'.hasClock = true ↔ ¬ s.Exhausted l us
  useNodes : s'.allocator.useNodes = true ↔ s.options.timeSettings.nodesPerMs ≠ 0
  one_le_maximum : 1 ≤ s'.allocator.maximum

theorem start_clocked {s s' : Session S} {limits : Limits} {root : Root} {us? : Option Side}
    {us : Side} (hu : (us? <|> root.turn?) = some us) (ht : limits.time.get us ≠ 0)
    (h : (start limits root us?).run.run s = (.ok (), s')) : s.Clocked limits us s' := by
  obtain ⟨us', adjust', limits', a, j, hu', rfl, he⟩ := start_ok h
  rw [hu] at hu'
  cases hu'
  have hlimits : limits' = _ := he.limits
  obtain ⟨r, hr, -, ha⟩ := he.timed ht
  have ha : a = _ := ha
  have hb := allocation_bounded hr
  refine ⟨by rw [hlimits], ?_, ?_, ?_⟩
  · simp only [hasClock, hlimits]
    exact hasClock_engage ht
  · rw [ha]
    by_cases hn : s.options.timeSettings.nodesPerMs = 0 <;> simp [Allocator.engage, ht, hn]
  · rw [ha]
    exact hb.one_le.trans hb.aim_le

omit [Scalar S] in
theorem Clocked.shouldStop_iff {s s' : Session S} {limits : Limits} {us : Side}
    (h : s.Clocked limits us s') (now nodes : Int) :
    s'.shouldStop now nodes = true ↔
      ¬ s.Exhausted limits us ∧ s'.allocator.maximum < s'.elapsed now nodes := by
  rw [shouldStop, Bool.and_eq_true, h.hasClock, decide_eq_true_eq]

end Session

namespace Engine
variable {S : Type} {s s₁ : Session S} {e : Engine} {g : Chess.Game} {limits : Limits}
  {clock : Clock} {r : Search.Progress Chess.Move}

theorem nodes_le_of_clocked {us : Side} (hc : s.Clocked limits us s₁)
    (hn : s.options.timeSettings.nodesPerMs ≠ 0) (hinf : limits.infinite = false)
    (hx : ¬ s.Exhausted limits us)
    (h : search chessRules (e.watch s₁ (s₁.limits.getD limits) clock)
      (e.goal s₁ (s₁.limits.getD limits) clock) g = some r) :
    (r.nodes : Int) ≤ s₁.allocator.maximum + |e.checkEvery| := by
  have hone := hc.one_le_maximum
  obtain ⟨limit, hlimit⟩ := Int.eq_ofNat_of_zero_le (by omega : 0 ≤ s₁.allocator.maximum)
  rw [hlimit]
  refine (search_passes h).nodes_le (by omega) fun m hm => ?_
  have hstop : s₁.shouldStop (clock .maximum m) m = true := by
    rw [hc.shouldStop_iff, Session.elapsed, Allocator.elapsed, if_pos (hc.useNodes.2 hn), hlimit]
    exact ⟨hx, Int.ofNat_lt.2 hm⟩
  simp [watch, outOfTime, hc.limits, hinf, hstop]

/-- Without a clock in its limits, and without a limit on nodes or time, a search is never cut
off. -/
theorem interrupted_of_exhausted {us : Side} (hc : s.Clocked limits us s₁)
    (hx : s.Exhausted limits us) (hnodes : limits.nodes = 0) (hmove : limits.moveTime = 0)
    (h : search chessRules (e.watch s₁ (s₁.limits.getD limits) clock)
      (e.goal s₁ (s₁.limits.getD limits) clock) g = some r) (hfault : r.fault = none) :
    r.interrupted = false := by
  cases hi : r.interrupted with
  | false => rfl
  | true =>
    have hpass := search_passes h
    simp only [Progress.outcome, hfault, hi, if_true] at hpass
    have hout := (Watch.stopsAt_eq_true_iff.1 hpass.2.2).2.2
    have hno : s₁.shouldStop (clock .maximum r.nodes) r.nodes = false := by
      rw [← Bool.not_eq_true, hc.shouldStop_iff]
      exact fun hs => hs.1 hx
    simp [watch, outOfTime, hc.limits, hnodes, hmove, hno] at hout

/-- A search with a clock is held to its maximum exactly if the session is not exhausted. -/
theorem held_to_maximum_unless_exhausted {S : Type} [Scalar S] (s : Session S) :
    (∀ {limits : Limits} {root : Root} {us? : Option Side} {us : Side} {s' : Session S},
      (us? <|> root.turn?) = some us → limits.time.get us ≠ 0 →
      (Session.start limits root us?).run.run s = (.ok (), s') →
      (¬ s.Exhausted limits us → s'.hasClock = true ∧ ∀ now nodes,
        (s'.shouldStop now nodes = true ↔ s'.allocator.maximum < s'.elapsed now nodes)) ∧
      (s.Exhausted limits us → s'.hasClock = false ∧ ∀ now nodes,
        s'.shouldStop now nodes = false)) ∧
    ∀ {e : Engine} {g : Chess.Game} {limits : Limits} {clock : Clock} {last : SearchRecord}
      {move : Option Chess.Move}, limits.infinite = false →
      s.options.timeSettings.nodesPerMs ≠ 0 → limits.time.get g.position.turn ≠ 0 →
      (e.thinkBy g limits clock last s).move = .ok move →
      (¬ s.Exhausted limits g.position.turn →
        ((e.thinkBy g limits clock last s).record.nodes : Int) ≤
          (e.thinkBy g limits clock last s).session.allocator.maximum + |e.checkEvery|) ∧
      (s.Exhausted limits g.position.turn → limits.nodes = 0 → limits.moveTime = 0 →
        (e.thinkBy g limits clock last s).record.interrupted = false) := by
  constructor
  · intro limits root us? us s' hu ht hstart
    have hc := Session.start_clocked hu ht hstart
    constructor
    · intro hx
      refine ⟨hc.hasClock.2 hx, fun now nodes => ?_⟩
      rw [hc.shouldStop_iff, and_iff_right hx]
    · intro hx
      refine ⟨?_, fun now nodes => ?_⟩
      · rw [← Bool.not_eq_true, hc.hasClock]
        exact fun h => h hx
      · rw [← Bool.not_eq_true, hc.shouldStop_iff]
        exact fun h => h.1 hx
  · intro e g limits clock last move hinf hn ht hmove
    obtain ⟨s₁, j, hstart, hsession, hsearch⟩ := thinkBy_ok hmove
    have hc := Session.start_clocked rfl ht hstart
    have hmaximum : (e.thinkBy g limits clock last s).session.allocator.maximum =
        s₁.allocator.maximum := by
      rw [hsession]
      exact (Session.settled_bounds s₁ _ _).2
    rw [hmaximum]
    cases hr : search chessRules (e.watch s₁ (s₁.limits.getD limits) clock)
      (e.goal s₁ (s₁.limits.getD limits) clock) g with
    | none =>
      simp only [hr] at hsearch
      rw [hsearch.2]
      have hone := hc.one_le_maximum
      have hinterval := abs_nonneg e.checkEvery
      exact ⟨fun _ => by simp only [SearchRecord.none]; omega, fun _ _ _ => rfl⟩
    | some r =>
      simp only [hr] at hsearch
      obtain ⟨hfault, -, hrecord⟩ := hsearch
      rw [hrecord]
      exact ⟨fun hx => nodes_le_of_clocked hc hn hinf hx hr,
        fun hx hnodes htime => interrupted_of_exhausted hc hx hnodes htime hr hfault⟩

theorem held_to_maximum_at_first :
    let e : Engine := ⟨64, 2, 1⟩
    let limits : Limits := .forSide .white 1 0 1 1000
    let s := ((Session.fresh Constants.tuned .standard .silent).step 1000
      (.setOption "nodestime" (.int 1))).2
    (e.thinkBy .cornered limits (fun _ _ => 1000) .none s).move.isOk = true ∧
      ¬ s.Exhausted limits Chess.Game.cornered.position.turn ∧
      ((e.thinkBy .cornered limits (fun _ _ => 1000) .none s).record.nodes : Int) ≤
        (e.thinkBy .cornered limits (fun _ _ => 1000) .none s).session.allocator.maximum +
          |e.checkEvery| := by
  intro e limits s
  have hok : (e.thinkBy .cornered limits (fun _ _ => 1000) .none s).move.isOk = true := by
    decide +kernel
  have hn : s.options.timeSettings.nodesPerMs ≠ 0 := by decide +kernel
  have hx : ¬ s.Exhausted limits Chess.Game.cornered.position.turn := by
    have hfresh : s.allocator.availableNodes ≠ 0 := by decide +kernel
    exact fun h => hfresh h.2.1
  obtain ⟨move, hmove⟩ := exists_of_isOk hok
  have held := (held_to_maximum_unless_exhausted s).2 (e := e) (g := .cornered) rfl hn (by decide)
    hmove
  exact ⟨hok, hx, held.1 hx⟩

/-- The second is not, if the first has used up the node budget. -/
theorem not_held_to_maximum_at_second :
    let e : Engine := ⟨64, 2, 1⟩
    let limits : Limits := .forSide .white 1 0 1 1000
    let s := ((Session.fresh Constants.tuned .standard .silent).step 1000
      (.setOption "nodestime" (.int 1))).2
    let first := e.thinkBy .cornered limits (fun _ _ => 1000) .none s
    let second := e.thinkBy .cornered limits (fun _ _ => 1000) first.record first.session
    first.move.isOk = true ∧ second.move.isOk = true ∧ limits.time.get .white ≠ 0 ∧
      second.session.hasClock = false ∧
      ¬ (second.record.nodes : Int) ≤ second.session.allocator.maximum + e.checkEvery := by
  decide +kernel

end Engine
end Zeitnot
