import Zeitnot.Proofs.Clock.Failure
import Zeitnot.Proofs.Number.Positive
set_option autoImplicit false

namespace Zeitnot
open Number Stateful

def Number.Fault.OutsideDomain : Fault → Prop
  | .realDivisionByZero | .intDivisionByZero | .intModuloByZero | .domain => True
  | .intTooLarge | .quotientTooLarge | .infinityToInt | .nanToInt | .range => False

/-- A computation all of whose arguments lie in the domains. -/
def WithinDomain {α : Type} (x : Except Fault α) : Prop :=
  ∀ fault, x = .error fault → ¬ fault.OutsideDomain

section
variable {α β : Type}

theorem withinDomain_ok (a : α) : WithinDomain (.ok a) := fun _ h => by cases h

theorem withinDomain_error {fault : Fault} (h : ¬ fault.OutsideDomain) :
    WithinDomain (.error fault : Except Fault α) := fun _ h' => by cases h'; exact h

theorem WithinDomain.bind {x : Except Fault α} {f : α → Except Fault β} (hx : WithinDomain x)
    (hf : ∀ a, x = .ok a → WithinDomain (f a)) : WithinDomain (x >>= f) := by
  cases x with
  | error fault => exact withinDomain_error (hx fault rfl)
  | ok a => exact hf a rfl

theorem withinDomain_divide (a : Int) {b : Int} (hb : b ≠ 0) : WithinDomain (divide a b) := by
  rw [divide_of_ne_zero a hb]
  exact withinDomain_ok _

end

/-- What arming needs of the scalars: where the operations have an answer, unless it is too large,
and which scalars are positive and hence not zero. -/
structure Defined {S : Type} [Scalar S] (c : Constants S) (Positive : S → Prop) : Prop where
  ofInt : ∀ i, WithinDomain (Scalar.ofInt i : Except Fault S)
  quotient : ∀ a {b : Int}, b ≠ 0 → WithinDomain (Scalar.quotient a b : Except Fault S)
  div : ∀ a {b : S}, Scalar.isZero b = false → WithinDomain (Scalar.div a b)
  log10 : ∀ {x : S}, Positive x → WithinDomain (Scalar.log10 x)
  log10OfInt : ∀ {i}, 0 < i → WithinDomain (Scalar.log10OfInt i : Except Fault S)
  pow : ∀ {x : S} (y : S), Positive x → WithinDomain (Scalar.pow x y)
  truncate : ∀ x : S, WithinDomain (Scalar.truncate x)
  isZero : ∀ {x : S}, Positive x → Scalar.isZero x = false
  positive_ofInt : ∀ {i} {x : S}, 0 < i → Scalar.ofInt i = .ok x → Positive x
  positive_seconds : ∀ {i} {x y : S}, 0 < i → Scalar.ofInt i = .ok x →
    Scalar.div x (Scalar.ofNat 1000) = .ok y → Positive y
  positive_ply : ∀ {ply} {x : S}, 0 ≤ ply → Scalar.ofInt ply = .ok x →
    Positive (Scalar.add x c.plyOffset)
  positive_ofNat : ∀ {n}, 0 < n → Positive (Scalar.ofNat n)
  positive_maxPlyDivisor : Positive c.maxPlyDivisor
  positive_controlPlyDivisor : Positive c.controlPlyDivisor
  ponderDivisor : c.ponderDivisor ≠ 0

section
variable {S : Type} [Scalar S] {c : Constants S} {Positive : S → Prop} (h : Defined c Positive)
include h

theorem withinDomain_centiMovesToGo (movesToGo scaledTime : Int) :
    WithinDomain (centiMovesToGo c movesToGo scaledTime) := by
  unfold centiMovesToGo
  dsimp only
  split
  · exact (h.ofInt _).bind fun _ _ => (h.truncate _).bind fun _ _ => withinDomain_ok _
  · exact withinDomain_ok _

theorem withinDomain_derivedAdjust {timeLeft : Int} (hleft : 1 ≤ timeLeft) :
    WithinDomain (derivedAdjust c timeLeft) :=
  (h.log10OfInt hleft).bind fun _ _ => withinDomain_ok _

theorem withinDomain_suddenDeathScales (time scaledTime : Int) {timeLeft ply : Int}
    (hleft : 1 ≤ timeLeft) (hply : 0 ≤ ply) (adjust : S) :
    WithinDomain (suddenDeathScales c time scaledTime timeLeft ply adjust) := by
  have hthousand := h.isZero (h.positive_ofNat (show 0 < 1000 by norm_num))
  unfold suddenDeathScales
  refine (h.ofInt _).bind fun ms hms => (h.div ms hthousand).bind fun seconds hseconds => ?_
  have hpos : Positive seconds := h.positive_seconds (by omega) hms hseconds
  refine (h.log10 hpos).bind fun logTime _ => ?_
  refine (h.quotient time (by omega)).bind fun timeLeftFactor _ => ?_
  refine (h.ofInt ply).bind fun plies hplies => ?_
  refine (h.pow c.plyExponent (h.positive_ply hply hplies)).bind fun power _ => ?_
  refine (h.ofInt ply).bind fun plies _ => ?_
  exact (h.div plies (h.isZero h.positive_maxPlyDivisor)).bind fun _ _ => withinDomain_ok _

theorem withinDomain_timeControlScales (time centiMoves : Int) {timeLeft : Int}
    (hleft : 1 ≤ timeLeft) (ply : Int) :
    WithinDomain (timeControlScales c time centiMoves timeLeft ply) := by
  have hhundred := h.isZero (h.positive_ofNat (show 0 < 100 by norm_num))
  have hcap (perMove moves : S) : WithinDomain (do
      let cap ← Scalar.div (Scalar.mul c.controlTimeLeftCap (← Scalar.ofInt time))
        (← Scalar.ofInt timeLeft)
      pure (⟨Scalar.least perMove cap, Scalar.add c.controlMaxBase
        (Scalar.mul c.controlMaxPerMove moves)⟩ : Scales S)) := by
    refine (h.ofInt time).bind fun clock _ => (h.ofInt timeLeft).bind fun left hpos => ?_
    exact (h.div _ (h.isZero (h.positive_ofInt hleft hpos))).bind fun _ _ => withinDomain_ok _
  unfold timeControlScales
  refine (h.ofInt _).bind fun centi _ => (h.div centi hhundred).bind fun moves _ => ?_
  split
  · exact hcap _ moves
  · rename_i hmoves
    refine (h.ofInt ply).bind fun plies _ => ?_
    refine (h.div plies (h.isZero h.positive_controlPlyDivisor)).bind fun later _ => ?_
    exact (h.div _ (Bool.eq_false_of_not_eq_true hmoves)).bind fun perMove _ => hcap perMove moves

theorem withinDomain_scalesFor (movesToGo time scaledTime centiMoves : Int) {timeLeft ply : Int}
    (hleft : 1 ≤ timeLeft) (hply : 0 ≤ ply) (adjust : S) :
    WithinDomain (scalesFor c movesToGo time scaledTime centiMoves timeLeft ply adjust) := by
  unfold scalesFor
  split
  · exact withinDomain_suddenDeathScales h time scaledTime hleft hply adjust
  · exact withinDomain_timeControlScales h time centiMoves hleft ply

theorem withinDomain_shareOf (share : S) (time : Int) : WithinDomain (shareOf share time) :=
  (h.ofInt time).bind fun _ _ => h.truncate _

theorem withinDomain_optimumFor (time timeLeft : Int) (scale : S) :
    WithinDomain (optimumFor c time timeLeft scale) :=
  (withinDomain_shareOf h _ _).bind fun _ _ =>
    (withinDomain_shareOf h _ _).bind fun _ _ => withinDomain_ok _

theorem withinDomain_maximumFor (time overhead optimum : Int) (scale : S) :
    WithinDomain (maximumFor c time overhead optimum scale) := by
  have haim : WithinDomain (maximumAim c time overhead optimum scale) :=
    (h.ofInt _).bind fun _ _ => (h.ofInt _).bind fun _ _ => (h.ofInt _).bind fun _ _ => h.truncate _
  exact (withinDomain_shareOf h _ _).bind fun _ _ => haim.bind fun _ _ => withinDomain_ok _

theorem withinDomain_withPonder (ponder : Bool) (optimum : Int) :
    WithinDomain (withPonder c ponder optimum) := by
  unfold withPonder floorDiv
  rw [if_neg h.ponderDivisor]
  split
  · exact (withinDomain_ok _).bind fun _ _ => withinDomain_ok _
  · exact withinDomain_ok _

theorem withinDomain_secondsText (ms : Int) : WithinDomain (secondsText S ms) :=
  (h.quotient ms (by norm_num)).bind fun _ _ => withinDomain_ok _

theorem withinDomain_speedText (elapsed nodes : Int) :
    WithinDomain (speedText S elapsed nodes) := by
  unfold speedText
  split
  · exact (h.quotient _ (by omega)).bind fun _ _ => withinDomain_ok _
  · exact withinDomain_ok _

theorem withinDomain_lines (e : Event S) : WithinDomain e.lines := by
  cases e with
  | clock side time inc movesToGo =>
    exact (withinDomain_secondsText h time).bind fun _ _ =>
      (withinDomain_secondsText h inc).bind fun _ _ => withinDomain_ok _
  | searchCompleted elapsed nodes =>
    exact (withinDomain_speedText h elapsed nodes).bind fun _ _ => withinDomain_ok _
  | _ => exact withinDomain_ok _

theorem withinDomain_write (j : Journal) (e : Event S) : WithinDomain (j.write e) := by
  unfold Journal.write
  split
  · exact withinDomain_ok _
  · exact (withinDomain_lines h e).bind fun _ _ => withinDomain_ok _

end

/-! ### Arming -/

namespace Arming

def WithinDomain {α : Type} (x : Arming α) : Prop :=
  ∀ s, Zeitnot.WithinDomain (x.run.run s).1

variable {α β : Type}

theorem WithinDomain.run_bind {x : Arming α} {f : α → Arming β} (hx : WithinDomain x) {s : Armed}
    (hf : ∀ a s', x.run.run s = (.ok a, s') → Zeitnot.WithinDomain ((f a).run.run s').1) :
    Zeitnot.WithinDomain ((x >>= f).run.run s).1 := by
  have hfirst := hx s
  rw [Stateful.run_bind]
  rcases hrun : x.run.run s with ⟨fault | a, s'⟩ <;> rw [hrun] at hfirst
  · exact withinDomain_error (hfirst fault rfl)
  · exact hf a s' hrun

theorem WithinDomain.bind {x : Arming α} {f : α → Arming β} (hx : WithinDomain x)
    (hf : ∀ a, WithinDomain (f a)) : WithinDomain (x >>= f) :=
  fun _ => hx.run_bind fun a s' _ => hf a s'

theorem withinDomain_pure (a : α) : WithinDomain (pure a) := fun _ => withinDomain_ok a

theorem withinDomain_get : WithinDomain (get : Arming Armed) := fun s => withinDomain_ok s

theorem withinDomain_modify (f : Armed → Armed) : WithinDomain (modify f : Arming PUnit) :=
  fun _ => withinDomain_ok _

theorem withinDomain_lift {x : Except Fault α} (hx : Zeitnot.WithinDomain x) :
    WithinDomain (liftM x : Arming α) :=
  fun _ => hx

section
variable {S : Type} [Scalar S] {c : Constants S} {Positive : S → Prop} (h : Defined c Positive)
include h

theorem withinDomain_report (e : Event S) : WithinDomain (report e) := by
  refine withinDomain_get.bind fun s => ?_
  exact (withinDomain_lift (withinDomain_write h s.journal e)).bind fun _ _ => withinDomain_ok _

theorem withinDomain_settleAdjust (movesToGo : Int) {timeLeft : Int} (hleft : 1 ≤ timeLeft)
    (adjust : S) : WithinDomain (settleAdjust c movesToGo timeLeft adjust) := by
  unfold settleAdjust
  split
  · exact (withinDomain_lift (withinDomain_derivedAdjust h hleft)).bind fun adjust =>
      (withinDomain_report h _).bind fun _ => withinDomain_pure adjust
  · exact withinDomain_pure adjust

theorem withinDomain_setBounds (settings : TimeSettings) (us : Side) {ply : Int} (hply : 0 ≤ ply)
    (adjust : S) {s : Armed}
    (hrate : (if s.allocator.useNodes then settings.nodesPerMs else 1) ≠ 0) :
    Zeitnot.WithinDomain ((setBounds c settings us ply adjust).run.run s).1 := by
  unfold setBounds
  rw [run_get_bind]
  -- The rate of this state is the only divisor that is known no earlier than here.
  refine (withinDomain_lift (withinDomain_divide _ hrate)).bind (fun scaledTime => ?_) s
  refine (withinDomain_report h _).bind fun _ => ?_
  refine (withinDomain_lift (withinDomain_centiMovesToGo h _ _)).bind fun centiMoves => ?_
  have hleft := one_le_effectiveTimeLeft (s.limits.time.get us) (s.limits.inc.get us) centiMoves
    settings.moveOverhead
  refine (withinDomain_settleAdjust h _ hleft adjust).bind fun adjust => ?_
  refine (withinDomain_lift (withinDomain_scalesFor h _ _ _ _ hleft hply adjust)).bind
    fun scales => ?_
  refine (withinDomain_lift (withinDomain_optimumFor h _ _ _)).bind fun aim => ?_
  refine (withinDomain_modify _).bind fun _ => ?_
  refine (withinDomain_lift (withinDomain_maximumFor h _ _ _ _)).bind fun maximum => ?_
  refine (withinDomain_modify _).bind fun _ => ?_
  refine (withinDomain_lift (withinDomain_withPonder h _ _)).bind fun optimum => ?_
  refine (withinDomain_modify _).bind fun _ => ?_
  exact (withinDomain_report h _).bind fun _ => withinDomain_pure adjust

theorem withinDomain_arm (settings : TimeSettings) (us : Side) {ply : Int} (hply : 0 ≤ ply)
    (adjust : S) : WithinDomain (arm c settings us ply adjust) := by
  intro s
  rw [run_arm]
  split
  · exact (withinDomain_report h _).bind (fun _ => withinDomain_pure adjust) _
  · split <;> rename_i hn
    · exact withinDomain_setBounds h settings us hply adjust one_ne_zero
    · refine (withinDomain_report h _).run_bind fun _ s' hs' => ?_
      rw [run_report] at hs'
      split at hs' <;> cases hs'
      exact withinDomain_setBounds h settings us hply adjust (by simpa [Armed.inNodes] using hn)

end

end Arming

/-! ### Binary64 numbers -/

namespace Number.Binary64

/-- The binary64 numbers with powers that are not fixed, among them those in use. -/
@[reducible] def withPower (power : Float → Float → Except Fault Float) : Scalar Float :=
  { (inferInstance : Scalar Float) with pow := power }

example : withPower power = (inferInstance : Scalar Float) := rfl

theorem checked_ok {fault : Fault} {x y : Float} (h : checked fault x = .ok y) : y = x := by
  unfold checked at h
  split at h <;> cases h
  rfl

theorem withinDomain_checked {fault : Fault} (h : ¬ fault.OutsideDomain) (x : Float) :
    WithinDomain (checked fault x) := by
  unfold checked
  split
  · exact withinDomain_ok x
  · exact withinDomain_error h

theorem withinDomain_truncate (x : Float) : WithinDomain (truncate x) := by
  unfold truncate
  split
  · exact withinDomain_error id
  · exact withinDomain_error id
  · exact withinDomain_ok _

theorem withinDomain_log10 {x : Float} (hx : 0.0 < x) : WithinDomain (Scalar.log10 x) := by
  unfold Scalar.log10 instScalarFloat
  dsimp only
  split
  · exact withinDomain_ok x
  · rw [if_pos hx]
    exact withinDomain_ok _

theorem withinDomain_log10OfInt {i : Int} (hi : 0 < i) : WithinDomain (log10OfInt i) := by
  unfold log10OfInt
  rw [if_neg (not_le.2 hi)]
  dsimp only
  split_ifs <;> exact withinDomain_ok _

theorem defined_tuned {power : Float → Float → Except Fault Float}
    (hpower : ∀ {x : Float} (y : Float), 0.0 < x → WithinDomain (power x y)) :
    @Defined Float (withPower power) Constants.tuned fun x => 0.0 < x :=
  letI := withPower power
  { ofInt := fun i => withinDomain_checked id _
    quotient := fun a b hb => by
      show WithinDomain (ite _ _ _)
      rw [if_neg hb]
      exact withinDomain_checked id _
    div := fun a b hb => by
      have hzero : (b == 0.0) = false := hb
      show WithinDomain (ite _ _ _)
      rw [hzero, if_neg Bool.false_ne_true]
      exact withinDomain_ok _
    log10 := withinDomain_log10
    log10OfInt := withinDomain_log10OfInt
    pow := hpower
    truncate := withinDomain_truncate
    isZero := beq_zero_of_pos
    positive_ofInt := fun hi hx => checked_ok hx ▸ ofInt_pos hi
    positive_seconds := fun {i x y} hi hx hy => by
      have hthousand : (ofInt 1000 == 0.0) = false := beq_zero_of_pos (ofInt_pos (by norm_num))
      have hdiv : (if ofInt 1000 == 0.0 then .error .realDivisionByZero else .ok (x / ofInt 1000)) =
          (.ok y : Except Fault Float) := hy
      rw [hthousand, if_neg Bool.false_ne_true] at hdiv
      cases hdiv
      exact checked_ok hx ▸ ofInt_div_thousand_pos hi
    positive_ply := fun hply hx => checked_ok hx ▸ ofInt_add_pos hply (by decide +kernel)
    positive_ofNat := fun hn => ofInt_pos (Int.natCast_pos.2 hn)
    positive_maxPlyDivisor := by decide +kernel
    positive_controlPlyDivisor := by decide +kernel
    ponderDivisor := by decide }

end Number.Binary64

namespace Arming

/-- What arming ends in when no argument was outside of its domain. The clock was scaled by a rate
that is not zero. -/
structure EndsWithinDomain {S : Type} (settings : TimeSettings) (armed : Except Fault S × Armed) :
    Prop where
  fault : ∀ fault, armed.1 = .error fault → ¬ fault.OutsideDomain
  rate : (if armed.2.allocator.useNodes then settings.nodesPerMs else 1) ≠ 0

/-- Whatever the options, the clock and what earlier searches left, and however positive numbers are
raised to powers: arming never divides by zero and takes no logarithm and no power of a number that
is not positive. -/
theorem arm_endsWithinDomain {power : Float → Float → Except Fault Float}
    (hpower : ∀ {x : Float} (y : Float), 0.0 < x → Zeitnot.WithinDomain (power x y))
    (settings : TimeSettings) (us : Side) {ply : Int} (hply : 0 ≤ ply) (adjust : Float)
    (s : Armed) :
    letI := Binary64.withPower power
    EndsWithinDomain settings ((arm Constants.tuned settings us ply adjust).run.run s) := by
  let := Binary64.withPower power
  refine ⟨withinDomain_arm (Binary64.defined_tuned hpower) settings us hply adjust s, ?_⟩
  obtain ⟨optimum, maximum, ha⟩ := allocator_arm Constants.tuned settings us ply adjust s
  simp only [ha]
  split
  · rename_i hnodes
    exact ((s.allocator.useNodes_engage s.limits us settings.nodesPerMs).1 hnodes).2
  · exact one_ne_zero

def startPower (x : Float) (_ : Float) : Except Fault Float :=
  if 0.0 < x then .ok 1.645939057477839 else .error .domain

/-- A budget of 5 nodes at 600 nodes in a millisecond: the clock is scaled to zero, and so is the
horizon. -/
theorem arm_small_budget :
    let s : Armed := ⟨⟨0, 0, 0, 5, false⟩, .forSide .white 1000 0 0 0, .silent⟩
    (s.limits.engage s.allocator .white 600).time.get .white = 5 ∧ truncDiv 5 600 = 0 ∧
      centiMovesToGo Constants.tuned 0 0 = .ok 0 ∧
      letI := Binary64.withPower startPower
      EndsWithinDomain ⟨10, 600, false⟩
        ((arm Constants.tuned ⟨10, 600, false⟩ .white 0 (-1.0)).run.run s) := by
  have hpower {x : Float} (y : Float) (hx : 0.0 < x) : Zeitnot.WithinDomain (startPower x y) := by
    rw [startPower, if_pos hx]
    exact withinDomain_ok _
  exact ⟨rfl, by decide, by decide +kernel,
    arm_endsWithinDomain hpower ⟨10, 600, false⟩ .white le_rfl (-1.0) _⟩

end Arming
end Zeitnot
