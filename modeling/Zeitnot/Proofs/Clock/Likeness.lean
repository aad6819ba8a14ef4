import Zeitnot.Proofs.Clock.Arming
/-!
What arming a search takes from the searches before it: the node budget and nothing else. From two
allocators with the same budget it gives the same adjustment or the same fault, and it leaves
allocators that are alike but for the bounds, if these were not alike before and are not set.
-/
set_option autoImplicit false

namespace Zeitnot
open Number Stateful

/-- Two journals in which the same has been told since the lines `p` of the one and the lines `q`
of the other. -/
structure Journal.Parallel (p q : List String) (j k : Journal) : Prop where
  quiet : j.quiet = k.quiet
  told : ∃ lines, j.lines = p ++ lines ∧ k.lines = q ++ lines

theorem Journal.parallel_of_quiet {j k : Journal} (h : j.quiet = k.quiet) :
    Parallel j.lines k.lines j k :=
  ⟨h, [], by simp⟩

section
variable {S : Type} [Scalar S]

theorem Journal.Parallel.write {p q : List String} {j k : Journal} (h : Parallel p q j k)
    (e : Event S) :
    (∃ fault, j.write e = .error fault ∧ k.write e = .error fault) ∨
      ∃ j' k', j.write e = .ok j' ∧ k.write e = .ok k' ∧ Parallel p q j' k' := by
  cases hq : j.quiet with
  | true => exact .inr ⟨j, k, write_of_quiet hq e, write_of_quiet (h.quiet ▸ hq) e, h⟩
  | false =>
    have hk : k.quiet = false := h.quiet ▸ hq
    obtain ⟨lines, hj, hl⟩ := h.told
    simp only [Journal.write, hq, hk, Bool.false_eq_true, if_false]
    cases e.lines with
    | error fault => exact .inl ⟨fault, rfl, rfl⟩
    | ok new =>
      refine .inr ⟨_, _, rfl, rfl, rfl, lines ++ new, ?_, ?_⟩
      · simp only [hj, List.append_assoc]
      · simp only [hl, List.append_assoc]

end

/-- Armings in progress that agree on everything but what has been told before, and on the bounds
only so far as `B` says. -/
structure Armed.Alike (B : Int → Int → Prop) (p q : List String) (s t : Armed) : Prop where
  startTime : s.allocator.startTime = t.allocator.startTime
  availableNodes : s.allocator.availableNodes = t.allocator.availableNodes
  useNodes : s.allocator.useNodes = t.allocator.useNodes
  optimum : B s.allocator.optimum t.allocator.optimum
  maximum : B s.allocator.maximum t.allocator.maximum
  limits : s.limits = t.limits
  journal : s.journal.Parallel p q t.journal

/-- Armings in progress that read the same clock of one side, each under its settings: all that the
bounds are worked out from. -/
structure Armed.SameReading (settings settings' : TimeSettings) (us : Side) (s t : Armed) :
    Prop where
  rate : (if s.allocator.useNodes then settings.nodesPerMs else 1) =
    if t.allocator.useNodes then settings'.nodesPerMs else 1
  overhead : settings.moveOverhead = settings'.moveOverhead
  ponder : settings.ponder = settings'.ponder
  time : s.limits.time.get us = t.limits.time.get us
  inc : s.limits.inc.get us = t.limits.inc.get us
  movesToGo : s.limits.movesToGo = t.limits.movesToGo

theorem Armed.SameReading.of_limits {settings : TimeSettings} {us : Side} {s t : Armed}
    (hmode : s.allocator.useNodes = t.allocator.useNodes) (hlimits : s.limits = t.limits) :
    s.SameReading settings settings us t where
  rate := by rw [hmode]
  overhead := rfl
  ponder := rfl
  time := by rw [hlimits]
  inc := by rw [hlimits]
  movesToGo := by rw [hlimits]

def Armed.begun (s : Armed) (byNodes : Bool) : Armed :=
  { s with allocator := { s.allocator with startTime := s.limits.startTime, useNodes := byNodes } }

def Armed.inNodes (s : Armed) (us : Side) (nodesPerMs : Int) : Armed :=
  let counting := { s.allocator with useNodes := true }.seed nodesPerMs (s.limits.time.get us)
  { s with
    allocator := counting
    limits := s.limits.inNodes us counting.availableNodes nodesPerMs }

theorem Armed.allocator_inNodes {s : Armed} {us : Side} {nodesPerMs : Int}
    (ht : s.limits.time.get us ≠ 0) (hn : nodesPerMs ≠ 0) :
    ((s.begun true).inNodes us nodesPerMs).allocator =
      s.allocator.engage s.limits us nodesPerMs := by
  rw [Allocator.engage, if_pos ⟨ht, hn⟩]
  rfl

theorem Armed.limits_inNodes {s : Armed} {us : Side} {nodesPerMs : Int}
    (ht : s.limits.time.get us ≠ 0) (hn : nodesPerMs ≠ 0) :
    ((s.begun true).inNodes us nodesPerMs).limits = s.limits.engage s.allocator us nodesPerMs := by
  rw [Limits.engage, if_pos ⟨ht, hn⟩, ← allocator_inNodes ht hn]
  rfl

theorem Armed.Alike.inNodes {B : Int → Int → Prop} {p q : List String} {s t : Armed}
    (h : s.Alike B p q t) (us : Side) (nodesPerMs : Int) :
    (s.inNodes us nodesPerMs).Alike B p q (t.inNodes us nodesPerMs) where
  startTime := by simp [Armed.inNodes, h.startTime]
  availableNodes := by
    simp only [Armed.inNodes, Allocator.availableNodes_seed, h.availableNodes, h.limits]
  useNodes := by simp [Armed.inNodes]
  optimum := by simpa [Armed.inNodes] using h.optimum
  maximum := by simpa [Armed.inNodes] using h.maximum
  limits := by
    simp only [Armed.inNodes, Allocator.availableNodes_seed, h.availableNodes, h.limits]
  journal := h.journal

theorem Armed.Alike.allocator_eq {p q : List String} {s t : Armed} (h : s.Alike Eq p q t) :
    s.allocator = t.allocator := by
  rcases s with ⟨⟨_, _, _, _, _⟩, _, _⟩
  rcases t with ⟨⟨_, _, _, _, _⟩, _, _⟩
  obtain ⟨hstart, hbudget, hmode, hoptimum, hmaximum, -, -⟩ := h
  simp only at hstart hbudget hmode hoptimum hmaximum
  rw [hstart, hbudget, hmode, hoptimum, hmaximum]

namespace Arming
variable {S : Type} [Scalar S] {B : Int → Int → Prop} {p q : List String}

theorem respects_report_of {R : Armed → Armed → Prop}
    (hj : ∀ s t, R s t → s.journal.Parallel p q t.journal)
    (hR : ∀ s t j k, R s t → j.Parallel p q k → R { s with journal := j } { t with journal := k })
    (e : Event S) : Respects R (report e) := by
  intro s t h
  rw [run_report, run_report]
  rcases (hj s t h).write e with ⟨fault, hs, ht⟩ | ⟨j, k, hs, ht, hjk⟩ <;> rw [hs, ht]
  · exact ⟨rfl, h⟩
  · exact ⟨rfl, hR s t j k h hjk⟩

theorem respects_report (e : Event S) : Respects (Armed.Alike B p q) (report e) :=
  respects_report_of (fun _ _ h => h.journal) (fun _ _ _ _ h hjk => { h with journal := hjk }) e

theorem respects_updateAllocator {f : Allocator → Allocator}
    (h : ∀ s t, Armed.Alike B p q s t →
      Armed.Alike B p q { s with allocator := f s.allocator }
        { t with allocator := f t.allocator }) :
    Respects (Armed.Alike B p q) (updateAllocator f) :=
  respects_modify h

/-- The bounds are set alike from related armings that read the same clock, if no report and no
update tells them apart. -/
theorem setBounds_related {R : Armed → Armed → Prop} (c : Constants S)
    {settings settings' : TimeSettings} {us : Side} (ply : Int) (adjust : S) {s t : Armed}
    (h : R s t) (hread : s.SameReading settings settings' us t)
    (hclock : Respects R (report (S := S) (.clock us.name (t.limits.time.get us)
      (t.limits.inc.get us) t.limits.movesToGo)))
    (hderived : ∀ a : S, Respects R (report (.adjustDerived a)))
    (hbounds : ∀ optimum maximum ponder,
      Respects R (report (S := S) (.bounds optimum maximum ponder)))
    (hoptimum : ∀ i, Respects R (updateAllocator fun a => { a with optimum := i }))
    (hmaximum : ∀ i, Respects R (updateAllocator fun a => { a with maximum := i })) :
    ((setBounds c settings us ply adjust).run.run s).1 =
        ((setBounds c settings' us ply adjust).run.run t).1 ∧
      R ((setBounds c settings us ply adjust).run.run s).2
        ((setBounds c settings' us ply adjust).run.run t).2 := by
  have hsettle (movesToGo timeLeft : Int) (a : S) :
      Respects R (settleAdjust c movesToGo timeLeft a) := by
    unfold settleAdjust
    split
    · exact (respects_liftExcept _).bind fun _ => (hderived _).bind fun _ => respects_pure _
    · exact respects_pure _
  unfold setBounds
  rw [run_get_bind, run_get_bind]
  simp only [hread.rate, hread.overhead, hread.ponder, hread.time, hread.inc, hread.movesToGo]
  -- Both runs go through the same program from here on.
  refine (respects_liftExcept _).bind (fun scaledTime => ?_) s t h
  refine hclock.bind fun _ => ?_
  refine (respects_liftExcept _).bind fun centiMoves => ?_
  refine (hsettle _ _ _).bind fun settled => ?_
  refine (respects_liftExcept _).bind fun scales => ?_
  refine (respects_liftExcept _).bind fun aim => ?_
  refine (hoptimum aim).bind fun _ => ?_
  refine (respects_liftExcept _).bind fun maximum => ?_
  refine (hmaximum maximum).bind fun _ => ?_
  refine (respects_liftExcept _).bind fun optimum => ?_
  refine (hoptimum optimum).bind fun _ => ?_
  exact (hbounds _ _ _).bind fun _ => respects_pure _

theorem respects_setBounds (hB : ∀ i, B i i) (c : Constants S) (settings : TimeSettings)
    (us : Side) (ply : Int) (adjust : S) :
    Respects (Armed.Alike B p q) (setBounds c settings us ply adjust) := fun _ _ h =>
  setBounds_related c ply adjust h (.of_limits h.useNodes h.limits) (respects_report _)
    (fun _ => respects_report _) (fun _ _ _ => respects_report _)
    (fun _ => respects_updateAllocator fun _ _ h => { h with optimum := hB _ })
    fun _ => respects_updateAllocator fun _ _ h => { h with maximum := hB _ }

theorem run_countNodes (us : Side) (nodesPerMs : Int) (s : Armed) :
    (countNodes S us nodesPerMs).run.run s =
      (report (S := S) (.nodeBudget (s.inNodes us nodesPerMs).allocator.availableNodes
        nodesPerMs)).run.run (s.inNodes us nodesPerMs) := by
  simp only [countNodes, updateAllocator, run_modify_bind, run_get_bind, Armed.inNodes]

theorem run_arm (c : Constants S) (settings : TimeSettings) (us : Side) (ply : Int) (adjust : S)
    (s : Armed) :
    (arm c settings us ply adjust).run.run s =
      if s.limits.time.get us = 0 then
        (report (S := S) .untimed >>= fun _ => pure adjust : Arming S).run.run (s.begun false)
      else if settings.nodesPerMs = 0 then
        (setBounds c settings us ply adjust).run.run (s.begun false)
      else
        let counting := (s.begun true).inNodes us settings.nodesPerMs
        (report (S := S) (.nodeBudget counting.allocator.availableNodes settings.nodesPerMs) >>=
          fun _ => setBounds c settings us ply adjust).run.run counting := by
  unfold arm
  simp only [updateAllocator, run_get_bind, run_modify_bind]
  split
  · rw [run_modify_bind]
    rfl
  · split
    · rw [run_modify_bind]
      rfl
    · rw [run_bind, run_countNodes]
      exact (run_bind _ _ _).symm

theorem arm_related {R : Armed → Armed → Prop} (c : Constants S) (settings : TimeSettings)
    (us : Side) (ply : Int) (adjust : S) {s t : Armed}
    (htime : s.limits.time.get us = t.limits.time.get us)
    (hwall : s.limits.time.get us = 0 ∨ settings.nodesPerMs = 0 → R (s.begun false) (t.begun false))
    (hnodes : s.limits.time.get us ≠ 0 → settings.nodesPerMs ≠ 0 →
      let x := (s.begun true).inNodes us settings.nodesPerMs
      let y := (t.begun true).inNodes us settings.nodesPerMs
      x.allocator.availableNodes = y.allocator.availableNodes ∧ R x y)
    (huntimed : Respects R (report (S := S) .untimed))
    (hbudget : ∀ available perMs, Respects R (report (S := S) (.nodeBudget available perMs)))
    (hset : Respects R (setBounds c settings us ply adjust)) :
    ((arm c settings us ply adjust).run.run s).1 = ((arm c settings us ply adjust).run.run t).1 ∧
      R ((arm c settings us ply adjust).run.run s).2
        ((arm c settings us ply adjust).run.run t).2 := by
  rw [run_arm, run_arm, ← htime]
  split
  case isTrue ht => exact (huntimed.bind fun _ => respects_pure _) _ _ (hwall (.inl ht))
  case isFalse ht =>
    split
    case isTrue hn => exact hset _ _ (hwall (.inr hn))
    case isFalse hn =>
      obtain ⟨hsame, hR⟩ := hnodes ht hn
      simp only [hsame]
      exact ((hbudget _ _).bind fun _ => hset) _ _ hR

/-- Arming depends on the limits, the node budget and on whether the journal is quiet. -/
theorem arm_alike (hB : ∀ i, B i i) (c : Constants S) (settings : TimeSettings) (us : Side)
    (ply : Int) (adjust : S) {s t : Armed}
    (hbudget : s.allocator.availableNodes = t.allocator.availableNodes)
    (ho : B s.allocator.optimum t.allocator.optimum)
    (hm : B s.allocator.maximum t.allocator.maximum) (hl : s.limits = t.limits)
    (hj : s.journal.Parallel p q t.journal) :
    ((arm c settings us ply adjust).run.run s).1 = ((arm c settings us ply adjust).run.run t).1 ∧
      Armed.Alike B p q ((arm c settings us ply adjust).run.run s).2
        ((arm c settings us ply adjust).run.run t).2 := by
  have halike (byNodes : Bool) : (s.begun byNodes).Alike B p q (t.begun byNodes) :=
    ⟨by simp only [Armed.begun, hl], hbudget, rfl, ho, hm, hl, hj⟩
  have hin := (halike true).inNodes us settings.nodesPerMs
  exact arm_related c settings us ply adjust (by rw [hl]) (fun _ => halike false)
    (fun _ _ => ⟨hin.availableNodes, hin⟩) (respects_report _) (fun _ _ => respects_report _)
    (respects_setBounds hB c settings us ply adjust)

end Arming
end Zeitnot
