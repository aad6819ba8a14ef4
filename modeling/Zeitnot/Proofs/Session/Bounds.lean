import Zeitnot.Proofs.Session.Action
set_option autoImplicit false

namespace Zeitnot
open Number Stateful

/-- The bounds of a search with `time` on its clock: a share of the clock caps the optimum, and
another one and a multiple of the optimum cap the maximum. -/
structure Bounded {S : Type} [Scalar S] (c : Constants S) (settings : TimeSettings) (time : Int)
    (maxScale : S) (aim optimum maximum : Int) : Prop where
  one_le : 1 ≤ aim
  aim_le : aim ≤ maximum
  aim_le_share : ∃ cap, shareOf c.optimumCap time = .ok cap ∧ aim ≤ max 1 cap
  maximum_le_share : ∃ cap, shareOf c.maximumCap time = .ok cap ∧ maximum ≤ max aim cap
  maximum_le_multiple : ∃ most, maximumAim c time settings.moveOverhead aim maxScale = .ok most ∧
    maximum ≤ max aim most
  optimum_eq : optimum = if settings.ponder then aim + aim.fdiv c.ponderDivisor else aim

section
variable {S : Type} [Scalar S]

theorem allocation_bounded {c : Constants S} {settings : TimeSettings} {l : Limits} {us : Side}
    {ply : Int} {adjust : S} {r : Allocation S}
    (h : allocation c settings l us ply adjust = .ok r) :
    Bounded c settings (l.time.get us) r.scales.max r.aim r.optimum r.maximum := by
  unfold allocation at h
  obtain ⟨centiMoves, -, h⟩ := bind_ok h
  obtain ⟨settled, -, h⟩ := bind_ok h
  obtain ⟨scales, -, h⟩ := bind_ok h
  obtain ⟨aim, haim, h⟩ := bind_ok h
  obtain ⟨maximum, hmaximum, h⟩ := bind_ok h
  obtain ⟨optimum, hoptimum, h⟩ := bind_ok h
  cases h
  obtain ⟨share, hshare, hone, hle⟩ := optimumFor_ok haim
  obtain ⟨cap, most, hcap, hmost, hge, hlecap, hlemost⟩ := maximumFor_ok hmaximum
  exact ⟨hone, hge, ⟨share, hshare, hle⟩, ⟨cap, hcap, hlecap⟩, ⟨most, hmost, hlemost⟩,
    withPonder_ok hoptimum⟩

theorem Bounded.maximum_le {c : Constants S} {settings : TimeSettings}
    {time aim optimum maximum x y : Int} {maxScale : S}
    (h : Bounded c settings time maxScale aim optimum maximum)
    (hx : shareOf c.optimumCap time = .ok x) (hy : shareOf c.maximumCap time = .ok y)
    (hle : x ≤ y) : maximum ≤ max 1 y := by
  obtain ⟨x', hx', haim⟩ := h.aim_le_share
  obtain ⟨y', hy', hmaximum⟩ := h.maximum_le_share
  rw [hx] at hx'
  rw [hy] at hy'
  cases hx'
  cases hy'
  omega

end

structure Request (S : Type) where
  limits : Limits
  us : Side
  ply : Int
  adjust : S

def Request.timed {S : Type} (q : Request S) : Bool := q.limits.time.get q.us != 0

section
variable {S : Type}

def Command.request? (s : Session S) : Command S → Option (Request S)
  | .start limits root us => (us <|> root.turn?).map fun us => ⟨limits, us, root.plyCount, s.adjust⟩
  | .arm limits us ply adjust => some ⟨limits, us, ply, adjust⟩
  | _ => none

variable [Scalar S]

/-- The own clock that a request is carried out with: counted in nodes, if they stand for time. -/
def Session.clockOf (s : Session S) (q : Request S) : Int :=
  (s.armed q.us q.ply q.adjust q.limits).2.1.time.get q.us

/-- The latest request under a clock in a run, with the session of which it is asked. -/
def Session.lastTimed (s : Session S) : List (Int × Command S) → Option (Session S × Request S)
  | [] => none
  | (now, c) :: rest =>
    ((s.step now c).2.lastTimed rest).or (((c.request? s).filter Request.timed).map (s, ·))

def Session.allocationOf (s : Session S) (q : Request S) : Except Fault (Allocation S) :=
  allocation s.constants s.options.timeSettings (s.armed q.us q.ply q.adjust q.limits).2.1 q.us
    q.ply q.adjust

/-- The bounds of an allocator that comes after a session: those of a request that the session has
carried out, or else those of the session. -/
def Session.BoundsAfter (s : Session S) (a : Allocator) : Option (Request S) → Prop
  | none => a.optimum = s.allocator.optimum ∧ a.maximum = s.allocator.maximum
  | some q => ∃ r, s.allocationOf q = .ok r ∧ a.optimum = r.optimum ∧ a.maximum = r.maximum

namespace Session

theorem armed_bounds {s s' : Session S} {q : Request S} {adjust' : S} {limits' : Limits}
    (h : s.armed q.us q.ply q.adjust q.limits = (.ok adjust', limits', s')) :
    s.BoundsAfter s'.allocator ((some q).filter Request.timed) := by
  have hl : (s.armed q.us q.ply q.adjust q.limits).2.1 = limits' := by rw [h]
  obtain ⟨a, j, rfl, he⟩ := armed_ok h
  by_cases ht : q.limits.time.get q.us = 0
  · have hf : (some q).filter Request.timed = none := by simp [Request.timed, ht]
    rw [hf]
    obtain ⟨-, ha⟩ := he.untimed ht
    have ha : a = _ := ha
    simp [BoundsAfter, ha]
  · have hf : (some q).filter Request.timed = some q := by simp [Request.timed, ht]
    rw [hf]
    obtain ⟨r, hr, -, ha⟩ := he.timed ht
    have ha : a = _ := ha
    exact ⟨r, by rw [allocationOf, hl]; exact hr, by rw [ha], by rw [ha]⟩

omit [Scalar S] in
theorem settled_bounds (s : Session S) (nodes : Int) (us : Side) :
    (s.settled nodes us).optimum = s.allocator.optimum ∧
      (s.settled nodes us).maximum = s.allocator.maximum := by
  unfold settled
  split
  · split <;> exact ⟨rfl, rfl⟩
  · exact ⟨rfl, rfl⟩

theorem step_bounds (s : Session S) (now : Int) (c : Command S)
    (h : ∀ fault, (s.step now c).1 ≠ .error (.arithmetic fault)) :
    s.BoundsAfter (s.step now c).2.allocator ((c.request? s).filter Request.timed) := by
  cases c with
  | start limits root us? =>
    cases hu : us? <|> root.turn? with
    | none =>
      rw [step_start_of_no_side _ _ hu]
      simp only [Command.request?, hu]
      exact ⟨rfl, rfl⟩
    | some us =>
      rw [step_start _ _ hu] at h ⊢
      simp only [Command.request?, hu]
      rcases ha : s.armed us root.plyCount s.adjust limits with ⟨fault | adjust, limits', s₁⟩
      · simp only [ha] at h
        exact absurd rfl (h fault)
      · have hbounds := armed_bounds (q := ⟨limits, us, root.plyCount, s.adjust⟩) ha
        exact hbounds
  | finish nodes us =>
    obtain ⟨j, hj⟩ := step_finish s now nodes us
    rw [hj]
    exact settled_bounds s nodes us
  | setOption name raw =>
    rw [step_setOption]
    cases s.options.set name raw <;> exact ⟨rfl, rfl⟩
  | advance nodes =>
    obtain ⟨j, answer, hj⟩ := step_advance s now nodes
    rw [hj]
    refine ⟨?_, ?_⟩ <;> (dsimp only; split <;> rfl)
  | arm limits us ply adjust =>
    rw [step_arm] at h ⊢
    simp only [Command.request?]
    rcases ha : s.armed us ply adjust limits with ⟨fault | adjust', limits', s₁⟩
    · simp only [ha] at h
      exact absurd rfl (h fault)
    · exact armed_bounds (q := ⟨limits, us, ply, adjust⟩) ha
  | _ => exact ⟨rfl, rfl⟩

theorem run_bounds (s : Session S) (cmds : List (Int × Command S))
    (h : ∀ answer ∈ (s.run cmds).1, ∀ fault, answer ≠ .error (.arithmetic fault)) :
    match s.lastTimed cmds with
    | none => s.BoundsAfter (s.run cmds).2.allocator none
    | some (s₀, q) => s₀.BoundsAfter (s.run cmds).2.allocator (some q) := by
  induction cmds generalizing s with
  | nil => exact ⟨rfl, rfl⟩
  | cons nc rest ih =>
    obtain ⟨now, c⟩ := nc
    have hstep := step_bounds s now c (h _ (by simp [run]))
    have hrest := ih (s.step now c).2 fun answer ha => h answer (by simp [run, ha])
    have hrun : (s.run ((now, c) :: rest)).2 = ((s.step now c).2.run rest).2 := rfl
    simp only [lastTimed, hrun]
    cases hl : (s.step now c).2.lastTimed rest with
    | some later => simpa only [hl, Option.some_or] using hrest
    | none =>
      simp only [hl] at hrest
      obtain ⟨ho, hm⟩ := hrest
      cases hq : (c.request? s).filter Request.timed with
      | none =>
        rw [hq] at hstep
        exact ⟨ho.trans hstep.1, hm.trans hstep.2⟩
      | some q =>
        rw [hq] at hstep
        obtain ⟨r, hr, hro, hrm⟩ := hstep
        exact ⟨r, hr, ho.trans hro, hm.trans hrm⟩

theorem lastTimed_constants {s s₀ : Session S} {cmds : List (Int × Command S)} {q : Request S}
    (h : s.lastTimed cmds = some (s₀, q)) : s₀.constants = s.constants := by
  induction cmds generalizing s with
  | nil => cases h
  | cons nc rest ih =>
    obtain ⟨now, c⟩ := nc
    simp only [lastTimed, Option.or_eq_some_iff, Option.map_eq_some_iff] at h
    rcases h with h | ⟨-, q', -, hq⟩
    · exact (ih h).trans (step_keeps s now c).1
    · cases hq
      rfl

end Session

/-- Shares of a clock that grow with their factor. -/
def SharesGrow (S : Type) [Scalar S] (time : Int) : Prop :=
  ∀ (a b : S) (x y : Int), Scalar.less b a = false → shareOf a time = .ok x →
    shareOf b time = .ok y → x ≤ y

/-- The bounds in every state of a session: zero, or taken from the clock of the latest search that
had one. Where shares grow with their factors, the share that caps the maximum bounds it. -/
theorem Session.bounds_of_latest_clock (c : Constants S) (options : Options) (journal : Journal)
    (cmds : List (Int × Command S))
    (h : ∀ answer ∈ ((fresh c options journal).run cmds).1, ∀ fault,
      answer ≠ .error (.arithmetic fault)) :
    let a := ((fresh c options journal).run cmds).2.allocator
    match (fresh c options journal).lastTimed cmds with
    | none => a.optimum = 0 ∧ a.maximum = 0
    | some (s, q) => ∃ r, s.allocationOf q = .ok r ∧
      Bounded c s.options.timeSettings (s.clockOf q) r.scales.max r.aim a.optimum a.maximum ∧
      (SharesGrow S (s.clockOf q) → Scalar.less c.maximumCap c.optimumCap = false →
        ∀ share most, shareOf c.maximumCap (s.clockOf q) = .ok share → share ≤ most →
          a.maximum ≤ max 1 most) := by
  have hrun := run_bounds (fresh c options journal) cmds h
  intro a
  cases hl : (fresh c options journal).lastTimed cmds with
  | none =>
    rw [hl] at hrun
    exact hrun
  | some found =>
    obtain ⟨s, q⟩ := found
    simp only [hl] at hrun ⊢
    obtain ⟨r, hr, ho, hm⟩ := hrun
    have hc : s.constants = c := lastTimed_constants hl
    have hb := allocation_bounded hr
    rw [hc, ← ho, ← hm] at hb
    refine ⟨r, hr, hb, fun hgrow hcaps share most hshare hmost => ?_⟩
    obtain ⟨x, hx, -⟩ := hb.aim_le_share
    have hle := hb.maximum_le hx hshare (hgrow _ _ _ _ hcaps hx hshare)
    exact hle.trans (max_le_max le_rfl hmost)

end

theorem Session.bounds_of_one_second :
    let cmds : List (Int × Command Float) :=
      [(0, .start (.forSide .white 1000 0 1 0) (.count 0) (some .white)), (7, .finish 12 .white)]
    (∀ answer ∈ ((fresh Constants.tuned .standard .silent).run cmds).1, ∀ fault,
      answer ≠ .error (.arithmetic fault)) ∧
    ∃ s q r, (fresh Constants.tuned .standard .silent).lastTimed cmds = some (s, q) ∧
      s.clockOf q = 1000 ∧ s.allocationOf q = .ok r ∧
      Bounded Constants.tuned s.options.timeSettings 1000 r.scales.max r.aim
        ((fresh Constants.tuned .standard .silent).run cmds).2.allocator.optimum
        ((fresh Constants.tuned .standard .silent).run cmds).2.allocator.maximum := by
  intro cmds
  have hall : ((fresh Constants.tuned .standard .silent).run cmds).1.all Except.isOk = true := by
    decide +kernel
  have hok : ∀ answer ∈ ((fresh Constants.tuned .standard .silent).run cmds).1, ∀ fault,
      answer ≠ .error (.arithmetic fault) :=
    fun answer ha fault => ne_error_of_all_isOk hall answer ha _
  refine ⟨hok, ?_⟩
  have h := bounds_of_latest_clock Constants.tuned .standard .silent cmds hok
  have hl : (fresh Constants.tuned .standard .silent).lastTimed cmds =
      some (fresh Constants.tuned .standard .silent,
        ⟨.forSide .white 1000 0 1 0, .white, 0, noAdjust⟩) := by
    simp [cmds, lastTimed, Command.request?, Request.timed, Limits.forSide, Root.plyCount, fresh]
  have hclock : (fresh Constants.tuned .standard .silent).clockOf
      ⟨.forSide .white 1000 0 1 0, .white, 0, noAdjust⟩ = 1000 := by decide +kernel
  simp only [hl, hclock] at h
  obtain ⟨r, hr, hb, -⟩ := h
  exact ⟨_, _, r, hl, hclock, hr, hb⟩

end Zeitnot
