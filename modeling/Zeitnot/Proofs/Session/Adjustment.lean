import Zeitnot.Proofs.Clock.Division
import Zeitnot.Proofs.Clock.Exact
import Zeitnot.Proofs.Session.Likeness
set_option autoImplicit false

namespace Zeitnot
open Number Stateful

structure Derivation (S : Type) where
  timeLeft : Int
  adjust : S

namespace Session
variable {S : Type} [Scalar S]

def timeLeft (s : Session S) (limits : Limits) (us : Side) : Except Fault Int :=
  let settings := s.options.timeSettings
  timeLeftFor s.constants settings (limits.engage s.allocator us settings.nodesPerMs) us

/-- The adjustment that a command derives: a search in sudden death that starts under a clock, while
the adjustment of the game is negative. -/
def derivation? (s : Session S) (now : Int) : Command S → Option (Derivation S)
  | .start limits root us? => do
    let us ← us? <|> root.turn?
    let timeLeft ← (s.timeLeft limits us).toOption
    let (answer, after) := s.step now (.start limits root us?)
    if answer.isOk = true ∧ Negative s.adjust ∧ limits.movesToGo = 0 ∧ limits.time.get us ≠ 0 then
      some ⟨timeLeft, after.adjust⟩
    else none
  | _ => none

def derivations (s : Session S) : List (Int × Command S) → List (Derivation S)
  | [] => []
  | (now, c) :: rest => (s.derivation? now c).toList ++ (s.step now c).2.derivations rest

variable {s : Session S} {now : Int}

theorem start_settles {limits : Limits} {root : Root} {us? : Option Side} {us : Side}
    (hu : (us? <|> root.turn?) = some us) (hclock : limits.time.get us ≠ 0)
    (hok : (s.step now (.start limits root us?)).1.isOk = true) :
    ∃ timeLeft, s.timeLeft limits us = .ok timeLeft ∧
      settledAdjust s.constants limits.movesToGo timeLeft s.adjust =
        .ok (s.step now (.start limits root us?)).2.adjust := by
  obtain ⟨adjust, limits', a, j, hs, heffect⟩ := step_start_effect hu hok
  have hlimits : limits' = limits.engage s.allocator us s.options.timeSettings.nodesPerMs :=
    heffect.limits
  obtain ⟨r, hr, hadjust, -⟩ := heffect.timed hclock
  obtain ⟨timeLeft, hleft, hsettled⟩ := allocation_settled hr
  dsimp only at hleft hsettled
  rw [hlimits] at hleft
  rw [hlimits, Limits.movesToGo_engage] at hsettled
  rw [hs]
  exact ⟨timeLeft, hleft, hsettled.trans (congrArg Except.ok hadjust.symm)⟩

theorem derivation?_start {limits : Limits} {root : Root} {us? : Option Side} {us : Side}
    {timeLeft : Int} (hu : (us? <|> root.turn?) = some us)
    (hok : (s.step now (.start limits root us?)).1.isOk = true) (hneg : Negative s.adjust)
    (hsudden : limits.movesToGo = 0) (hclock : limits.time.get us ≠ 0)
    (hleft : s.timeLeft limits us = .ok timeLeft) :
    s.derivation? now (.start limits root us?) =
      some ⟨timeLeft, (s.step now (.start limits root us?)).2.adjust⟩ := by
  simp only [derivation?, hu, hleft, Except.toOption, Option.bind_eq_bind, Option.bind_some]
  exact if_pos ⟨hok, hneg, hsudden, hclock⟩

theorem step_adjust_of_derivation {c : Command S} {d : Derivation S}
    (h : s.derivation? now c = some d) :
    Negative s.adjust ∧ (s.step now c).2.adjust = d.adjust ∧ 1 ≤ d.timeLeft ∧
      derivedAdjust s.constants d.timeLeft = .ok d.adjust := by
  cases c with
  | start limits root us? =>
    simp only [derivation?, Option.bind_eq_bind, Option.bind_eq_some_iff] at h
    obtain ⟨us, hu, timeLeft, hleft, h⟩ := h
    split at h <;> rename_i hc
    · obtain ⟨hok, hneg, hsudden, hclock⟩ := hc
      cases h
      obtain ⟨timeLeft', hleft', hsettled⟩ := start_settles hu hclock hok
      rw [hleft'] at hleft
      cases hleft
      rw [settledAdjust_eq, if_pos ⟨hsudden, hneg⟩] at hsettled
      exact ⟨hneg, rfl, one_le_of_timeLeftFor hleft', hsettled⟩
    · cases h
  | _ => cases h

theorem step_adjust_of_no_derivation {c : Command S} (hgame : c ≠ .newGame)
    (h : s.derivation? now c = none) : (s.step now c).2.adjust = s.adjust := by
  cases c with
  | start limits root us? =>
    cases hu : us? <|> root.turn? with
    | none => rw [step_start_of_no_side _ _ hu]
    | some us =>
      by_cases hok : (s.step now (.start limits root us?)).1.isOk = true
      · by_cases hclock : limits.time.get us = 0
        · obtain ⟨adjust, limits', a, j, hs, heffect⟩ := step_start_effect hu hok
          rw [hs]
          exact (heffect.untimed hclock).1
        · obtain ⟨timeLeft, hleft, hsettled⟩ := start_settles hu hclock hok
          have hother : ¬ (limits.movesToGo = 0 ∧ Negative s.adjust) := by
            rintro ⟨hsudden, hneg⟩
            rw [derivation?_start hu hok hneg hsudden hclock hleft] at h
            cases h
          rw [settledAdjust_eq, if_neg hother] at hsettled
          exact (Except.ok.inj hsettled).symm
      · rw [step_start _ _ hu] at hok ⊢
        obtain ⟨result, limits', a, j, harmed⟩ := armed_eq s us root.plyCount s.adjust limits
        rw [harmed] at hok ⊢
        cases result with
        | ok adjust => exact absurd rfl hok
        | error fault => rfl
  | arm limits us ply adjust =>
    rw [step_arm]
    obtain ⟨result, limits', a, j, harmed⟩ := armed_eq s us ply adjust limits
    rw [harmed]
    cases result <;> rfl
  | finish nodes us =>
    obtain ⟨j, hj⟩ := step_finish s now nodes us
    rw [hj]
  | advance nodes =>
    obtain ⟨j, answer, hj⟩ := step_advance s now nodes
    rw [hj]
  | setOption name raw =>
    rw [step_setOption]
    cases s.options.set name raw <;> rfl
  | newGame => exact absurd rfl hgame
  | _ => rfl

section
variable {cmds : List (Int × Command S)}

/-- An adjustment that is not negative is the last one of the game. -/
theorem derivations_of_not_negative (hgame : ∀ nc ∈ cmds, nc.2 ≠ .newGame)
    (h : ¬ Negative s.adjust) : s.derivations cmds = [] := by
  induction cmds generalizing s with
  | nil => rfl
  | cons nc rest ih =>
    obtain ⟨now, c⟩ := nc
    have hnone : s.derivation? now c = none := by
      cases hd : s.derivation? now c with
      | none => rfl
      | some d => exact absurd (step_adjust_of_derivation hd).1 h
    have hkept := step_adjust_of_no_derivation (hgame _ List.mem_cons_self) hnone
    rw [derivations, hnone, ih (fun nc hmem => hgame nc (List.mem_cons_of_mem _ hmem)) (hkept ▸ h)]
    rfl

theorem run_adjust (hgame : ∀ nc ∈ cmds, nc.2 ≠ .newGame) :
    (s.run cmds).2.adjust =
      ((s.derivations cmds).getLast?.map Derivation.adjust).getD s.adjust := by
  induction cmds generalizing s with
  | nil => rfl
  | cons nc rest ih =>
    obtain ⟨now, c⟩ := nc
    have hrest := ih (s := (s.step now c).2) fun nc hmem => hgame nc (List.mem_cons_of_mem _ hmem)
    rw [run, derivations]
    refine hrest.trans ?_
    cases hd : s.derivation? now c with
    | none =>
      rw [step_adjust_of_no_derivation (hgame _ List.mem_cons_self) hd]
      rfl
    | some d =>
      rw [(step_adjust_of_derivation hd).2.1]
      cases (s.step now c).2.derivations rest with
      | nil => rfl
      | cons d' ds =>
        simp [List.getLast?_cons_cons, List.getLast?_eq_some_getLast (List.cons_ne_nil d' ds)]

theorem derived_of_mem_derivations {d : Derivation S} (h : d ∈ s.derivations cmds) :
    1 ≤ d.timeLeft ∧ derivedAdjust s.constants d.timeLeft = .ok d.adjust := by
  induction cmds generalizing s with
  | nil => cases h
  | cons nc rest ih =>
    obtain ⟨now, c⟩ := nc
    rcases List.mem_append.1 h with hfirst | hrest
    · exact (step_adjust_of_derivation (Option.mem_toList.1 hfirst)).2.2
    · rw [← (step_keeps s now c).1]
      exact ih hrest

theorem negative_of_mem_dropLast (hgame : ∀ nc ∈ cmds, nc.2 ≠ .newGame) {d : Derivation S}
    (h : d ∈ (s.derivations cmds).dropLast) : Negative d.adjust := by
  induction cmds generalizing s with
  | nil => cases h
  | cons nc rest ih =>
    obtain ⟨now, c⟩ := nc
    have hgame' := fun nc hmem => hgame nc (List.mem_cons_of_mem _ hmem)
    rw [derivations] at h
    cases hd : s.derivation? now c with
    | none =>
      rw [hd] at h
      exact ih hgame' h
    | some first =>
      have hkept := (step_adjust_of_derivation hd).2.1
      rw [hd] at h
      cases hrest : (s.step now c).2.derivations rest with
      | nil =>
        rw [hrest] at h
        cases h
      | cons second ds =>
        -- There is a second derivation only because the first one is negative.
        have hneg : Negative (s.step now c).2.adjust := by
          by_contra hnot
          rw [derivations_of_not_negative hgame' hnot] at hrest
          cases hrest
        rw [hrest] at h
        rcases List.mem_cons.1 h with rfl | hlater
        · exact hkept ▸ hneg
        · exact ih hgame' (hrest ▸ hlater)

end

structure Unrounded (s : Session EReal) : Prop where
  constants : s.constants = Constants.decimals
  quiet : s.journal.quiet = true
  adjust : ∃ a : ℝ, s.adjust = a

theorem Unrounded.after_start {s : Session EReal} (h : s.Unrounded) (now : Int) {limits : Limits}
    {root : Root} {us? : Option Side} {us : Side} (hu : (us? <|> root.turn?) = some us)
    (hclock : limits.time.get us ≠ 0) (hsudden : limits.movesToGo = 0)
    (hply : 0 ≤ root.plyCount) :
    let started := s.step now (.start limits root us?)
    started.1.isOk = true ∧ started.2.Unrounded ∧ started.2.options = s.options := by
  obtain ⟨adjust, hadjust⟩ := h.adjust
  let settings := s.options.timeSettings
  have hsudden' : (limits.engage s.allocator us settings.nodesPerMs).movesToGo = 0 :=
    (Limits.movesToGo_engage _ _ _ _).trans hsudden
  obtain ⟨r, settled, hsettled, hr⟩ := allocation_decimals settings us hsudden' hply adjust
  rw [← h.constants, ← hadjust] at hr
  obtain ⟨after, hrun, hj⟩ := Arming.arm_of_allocation (s := ⟨s.allocator, limits, s.journal⟩)
    hclock h.quiet hr
  intro started
  have hstarted : started = (.ok .done, { s with
      allocator := after.allocator
      adjust := r.adjust
      limits := some after.limits
      journal := after.journal }) := by
    simp only [started, step_start _ _ hu, armed_of_run hrun]
  rw [hstarted]
  exact ⟨rfl, ⟨h.constants, (congrArg Journal.quiet hj).trans h.quiet, settled, hsettled⟩, rfl⟩

theorem Unrounded.timeLeft_forSide {s : Session EReal} (h : s.Unrounded) (ho : s.options = .standard)
    (time now : Int) :
    s.timeLeft (.forSide .white time 0 0 now) .white = .ok (effectiveTimeLeft time 0
      (if time < 1000 then min 5051 (Exact.towardZero (time * 5.051)) else 5051) 10) := by
  have hsettings : s.options.timeSettings = ⟨10, 0, false⟩ := by rw [ho]; decide +kernel
  simp only [timeLeft, timeLeftFor, hsettings, h.constants, Limits.engage, ne_eq, not_true_eq_false,
    and_false, if_false, if_true, centiMovesToGo_decimals, bind, Except.bind, pure, Except.pure]
  simp [Limits.forSide, Limits.unlimited, PerSide.get, PerSide.set]

def suddenDeath (time : Int) : Command EReal :=
  .start (.forSide .white time 0 0 0) (.count 0) (some .white)

theorem Unrounded.derives {s : Session EReal} (h : s.Unrounded) (ho : s.options = .standard)
    (hneg : Negative s.adjust) {time timeLeft : Int} (hclock : time ≠ 0)
    (hleft : s.timeLeft (.forSide .white time 0 0 0) .white = .ok timeLeft) :
    let started := s.step 0 (suddenDeath time)
    let adjust : EReal := ((0.3128 * Exact.decimalLog timeLeft - 0.4354 : ℝ) : EReal)
    started.1.isOk = true ∧ started.2.Unrounded ∧ started.2.options = .standard ∧
      started.2.adjust = adjust ∧ s.derivation? 0 (suddenDeath time) = some ⟨timeLeft, adjust⟩ := by
  intro started adjust
  have hu : (some Side.white <|> (Root.count 0).turn?) = some .white := rfl
  have hclock' : (Limits.forSide .white time 0 0 0).time.get .white ≠ 0 := hclock
  obtain ⟨hok, hreal, hoptions⟩ := h.after_start 0 hu hclock' rfl le_rfl
  have hderivation : s.derivation? 0 (suddenDeath time) = some ⟨timeLeft, started.2.adjust⟩ :=
    derivation?_start hu hok hneg rfl hclock' hleft
  obtain ⟨-, -, hone, hderived⟩ := step_adjust_of_derivation hderivation
  rw [h.constants, derivedAdjust_decimals hone] at hderived
  have hadjust : started.2.adjust = adjust := (Except.ok.inj hderived).symm
  exact ⟨hok, hreal, hoptions.trans ho, hadjust, hadjust ▸ hderivation⟩

theorem timeLeft_of_one {s : Session EReal} (h : s.Unrounded) (ho : s.options = .standard) :
    s.timeLeft (.forSide .white 1 0 0 0) .white = .ok 1 := by
  have hmoves : Exact.towardZero (((1 : Int) : ℝ) * 5.051) = 5 := by
    unfold Exact.towardZero
    rw [if_pos (by norm_num), Int.floor_eq_iff]
    norm_num
  rw [h.timeLeft_forSide ho, hmoves]
  rfl

theorem timeLeft_of_minute {s : Session EReal} (h : s.Unrounded) (ho : s.options = .standard) :
    s.timeLeft (.forSide .white 60000 0 0 0) .white = .ok 59475 := by
  rw [h.timeLeft_forSide ho]
  rfl

theorem unrounded_fresh : (fresh Constants.decimals .standard .silent).Unrounded :=
  ⟨rfl, rfl, _, Exact.sub_coe _ _⟩

theorem negative_noAdjust : Negative (noAdjust : EReal) := by
  simp only [noAdjust, Exact.ofNat_eq, Exact.sub_coe, negative_coe]
  norm_num

theorem Unrounded.derives_twice {s : Session EReal} (h : s.Unrounded) (ho : s.options = .standard)
    (hneg : Negative s.adjust) :
    let first := s.step 0 (suddenDeath 1)
    let second := first.2.step 0 (suddenDeath 60000)
    first.1.isOk = true ∧ second.1.isOk = true ∧ first.2.adjust = ((-0.4354 : ℝ) : EReal) ∧
      ¬ Negative second.2.adjust ∧
      s.derivations [(0, suddenDeath 1), (0, suddenDeath 60000)] =
        [⟨1, first.2.adjust⟩, ⟨59475, second.2.adjust⟩] := by
  intro first second
  obtain ⟨hok₁, hreal₁, ho₁, hadjust₁, hd₁⟩ :=
    h.derives ho hneg one_ne_zero (timeLeft_of_one h ho)
  have hfirst : first.2.adjust = ((-0.4354 : ℝ) : EReal) := by
    rw [hadjust₁]
    norm_num
  have hneg₁ : Negative first.2.adjust := by
    rw [hfirst, negative_coe]
    norm_num
  have hminute : (60000 : Int) ≠ 0 := by decide
  obtain ⟨hok₂, -, -, hadjust₂, hd₂⟩ :=
    hreal₁.derives ho₁ hneg₁ hminute (timeLeft_of_minute hreal₁ ho₁)
  have hnot₂ : ¬ Negative second.2.adjust := by
    intro hneg₂
    rw [hadjust₂,
      accurate_decimals.negative_iff (by decide) (derivedAdjust_decimals (by decide))] at hneg₂
    exact absurd hneg₂ (by decide)
  refine ⟨hok₁, hok₂, hfirst, hnot₂, ?_⟩
  simp only [derivations, hd₁, hd₂, hadjust₁, hadjust₂, Option.toList_some, List.append_nil,
    List.singleton_append, second, first]

/-- Over a game the adjustment is what was derived last. Once it is not negative it stays; it is
derived again only after it was derived as negative, which with accurate numbers and the tuned
coefficients means from a time left of at most 24. -/
theorem adjust_kept_once_nonnegative (s : Session S) {cmds : List (Int × Command S)}
    (hgame : ∀ nc ∈ cmds, nc.2 ≠ .newGame) :
    let derived := s.derivations cmds
    (s.run cmds).2.adjust = (derived.getLast?.map Derivation.adjust).getD s.adjust ∧
      (∀ d ∈ derived.dropLast, Negative d.adjust) ∧
      ∀ d ∈ derived, 1 ≤ d.timeLeft ∧ derivedAdjust s.constants d.timeLeft = .ok d.adjust ∧
        (¬ Negative d.adjust → (s.run cmds).2.adjust = d.adjust) ∧
        ∀ value, Accurate s.constants value → (Negative d.adjust ↔ d.timeLeft ≤ 24) := by
  intro derived
  have hlast := run_adjust (s := s) hgame
  have hnegative : ∀ d ∈ derived.dropLast, Negative d.adjust :=
    fun d hd => negative_of_mem_dropLast hgame hd
  refine ⟨hlast, hnegative, fun d hd => ?_⟩
  obtain ⟨hone, hderived⟩ := derived_of_mem_derivations hd
  refine ⟨hone, hderived, fun hnot => ?_,
    fun value haccurate => haccurate.negative_iff hone hderived⟩
  have hne : derived ≠ [] := List.ne_nil_of_mem hd
  have hd' : d = derived.getLast hne := by
    rw [← List.dropLast_append_getLast hne, List.mem_append, List.mem_singleton] at hd
    exact hd.resolve_left fun hmem => hnot (hnegative d hmem)
  rw [hlast, show s.derivations cmds = derived from rfl, List.getLast?_eq_some_getLast hne, hd']
  rfl

theorem adjust_kept_after_second_derivation :
    let s := fresh Constants.decimals .standard .silent
    let cmds := [(0, suddenDeath 1), (0, suddenDeath 60000)]
    (s.derivations cmds).length = 2 ∧
      (∀ d ∈ s.derivations cmds, Negative d.adjust ↔ d.timeLeft ≤ 24) ∧
      (s.run cmds).2.adjust = ((0.3128 * Exact.decimalLog 59475 - 0.4354 : ℝ) : EReal) := by
  intro s cmds
  have hreal : s.Unrounded := unrounded_fresh
  have ho : s.options = .standard := rfl
  have hneg : Negative s.adjust := negative_noAdjust
  clear_value s
  obtain ⟨-, -, -, hnot, hderivations⟩ := hreal.derives_twice ho hneg
  have hgame : ∀ nc ∈ cmds, nc.2 ≠ .newGame := by simp [cmds, suddenDeath]
  obtain ⟨-, -, hall⟩ := adjust_kept_once_nonnegative s hgame
  have haccurate : Accurate s.constants EReal.toReal := hreal.constants ▸ accurate_decimals
  have hsign : ∀ d ∈ s.derivations cmds, Negative d.adjust ↔ d.timeLeft ≤ 24 :=
    fun d hd => (hall d hd).2.2.2 _ haccurate
  rw [hderivations] at hall
  obtain ⟨hone, hderived, hkept, -⟩ := hall _ (List.mem_cons_of_mem _ List.mem_cons_self)
  refine ⟨congrArg List.length hderivations, hsign, (hkept hnot).trans ?_⟩
  rw [hreal.constants, derivedAdjust_decimals hone] at hderived
  exact (Except.ok.inj hderived).symm

/-- The adjustment of the first search is derived anew, although the game is the same. -/
theorem derived_again_after_one_millisecond :
    let s := fresh Constants.decimals .standard .silent
    let first := s.step 0 (suddenDeath 1)
    let second := first.2.step 0 (suddenDeath 60000)
    first.1.isOk = true ∧ first.2.adjust = ((-0.4354 : ℝ) : EReal) ∧ second.1.isOk = true ∧
      second.2.adjust ≠ first.2.adjust := by
  intro s first second
  have hreal : s.Unrounded := unrounded_fresh
  have ho : s.options = .standard := rfl
  have hneg : Negative s.adjust := negative_noAdjust
  clear_value s
  obtain ⟨hok₁, hok₂, hfirst, hnot₂, -⟩ := hreal.derives_twice ho hneg
  refine ⟨hok₁, hfirst, hok₂, fun hsame => hnot₂ ?_⟩
  rw [hsame, hfirst, negative_coe]
  norm_num

end Session
end Zeitnot
