import Zeitnot.Proofs.Search.Deepening
set_option autoImplicit false

namespace Zeitnot.Search
open Number

/-- Whether a depth of this value, completed after so many nodes, is followed by another. -/
structure Goal.GoesOn (goal : Goal) (v : Int) (nodes : Nat) : Prop where
  no_mate : v.natAbs < mateValue - goal.maxDepth
  not_satisfied : goal.satisfied nodes = false

structure Progress.Underway {M : Type} (goal : Goal) (r : Progress M) : Prop where
  told_le : ∀ d n m v, .completed d n m v ∈ r.steps → d ≤ r.depth
  goesOn : ∀ d n m v, .completed d n m v ∈ r.steps → goal.GoesOn v n
  interrupted : r.interrupted = false
  fault : r.fault = none

/-- Progress at which a search to a limit has ended. If it was cut off, another depth was started
after the last that was completed. -/
structure Progress.Ended {M : Type} (goal : Goal) (limit : Nat) (r : Progress M) : Prop where
  depth_le : r.depth ≤ limit
  goesOn : ∀ d n m v, .completed d n m v ∈ r.steps → d < r.depth ∨ r.interrupted = true →
    goal.GoesOn v n
  reason : r.interrupted = false → r.fault = none → r.depth < limit →
    ∃ m v, r.value = some v ∧ .completed r.depth r.nodes m v ∈ r.steps ∧ ¬ goal.GoesOn v r.nodes

section
variable {P M : Type} {goal : Goal} {r : Progress M} {limit : Nat}

theorem Progress.underway_start (m : M) (ms : List M) : (Progress.start m ms).Underway goal :=
  ⟨fun _ _ _ _ h => absurd h List.not_mem_nil, fun _ _ _ _ h => absurd h List.not_mem_nil, rfl, rfl⟩

theorem Progress.Underway.ended (h : r.Underway goal) : r.Ended goal r.depth :=
  ⟨le_rfl, fun d n m v htold _ => h.goesOn d n m v htold, fun _ _ hlt => absurd hlt (lt_irrefl _)⟩

variable [BEq M] {v : Int} {m : M} {n : Nat}

theorem Progress.told_complete {d k : Nat} {m' : M} {w : Int} :
    .completed d k m' w ∈ (r.complete v m n).steps ↔
      .completed d k m' w ∈ r.steps ∨ (d = r.depth + 1 ∧ k = n ∧ m' = m ∧ w = v) := by
  simp [Progress.complete]

theorem Progress.Underway.complete (h : r.Underway goal) (hgo : goal.GoesOn v n) :
    (r.complete v m n).Underway goal := by
  refine ⟨fun d k m' w htold => ?_, fun d k m' w htold => ?_, h.interrupted, h.fault⟩
  · rcases told_complete.1 htold with htold | ⟨rfl, -⟩
    · exact (h.told_le d k m' w htold).trans (Nat.le_succ _)
    · exact le_rfl
  · rcases told_complete.1 htold with htold | ⟨-, rfl, -, rfl⟩
    · exact h.goesOn d k m' w htold
    · exact hgo

theorem Progress.Underway.ended_complete (h : r.Underway goal) (hstop : ¬ goal.GoesOn v n)
    (hlimit : r.depth < limit) : (r.complete v m n).Ended goal limit := by
  refine ⟨hlimit, fun d k m' w htold hd => ?_, fun _ _ _ => ⟨m, v, rfl, ?_, hstop⟩⟩
  · rcases told_complete.1 htold with htold | ⟨rfl, -⟩
    · exact h.goesOn d k m' w htold
    · have hcut : (r.complete v m n).interrupted = false := h.interrupted
      rw [hcut] at hd
      exact absurd hd (not_or.2 ⟨lt_irrefl _, Bool.false_ne_true⟩)
  · exact told_complete.2 (.inr ⟨rfl, rfl, rfl, rfl⟩)

omit [BEq M] in
theorem Progress.Ended.tell {step : Step M} (h : r.Ended goal limit)
    (hstep : ∀ d n m v, step ≠ .completed d n m v) :
    Progress.Ended goal limit { r with steps := r.steps ++ [step] } := by
  have htold (d n m v) : .completed d n m v ∈ r.steps ++ [step] ↔ .completed d n m v ∈ r.steps := by
    simp [(hstep d n m v).symm]
  refine ⟨h.depth_le, fun d n m v ht hd => h.goesOn d n m v ((htold d n m v).1 ht) hd,
    fun hi hf hlt => ?_⟩
  obtain ⟨m, v, hv, ht, hstop⟩ := h.reason hi hf hlt
  exact ⟨m, v, hv, (htold _ _ m v).2 ht, hstop⟩

variable {rules : Rules P M} {watch : Watch} {root : P}

theorem deepen_of_goesOn {nodes : Nat} {m? : Option M} (remaining : Nat)
    (hf : searchRoot rules watch root (r.depth + 1) r.order r.nodes = (.found (v, m?), nodes))
    (hgo : goal.GoesOn v nodes) :
    deepen rules watch goal root (remaining + 1) r =
      deepen rules watch goal root remaining (r.complete v (m?.getD r.best) nodes) := by
  rw [deepen_found hf]
  dsimp only
  rw [if_neg (not_le.2 hgo.no_mate), hgo.not_satisfied, if_neg Bool.false_ne_true]

theorem deepen_ended (remaining : Nat) (h : r.Underway goal) :
    (deepen rules watch goal root remaining r).Ended goal (r.depth + remaining) := by
  induction remaining generalizing r with
  | zero => exact h.ended
  | succ remaining ih =>
    have hlt : r.depth < r.depth + (remaining + 1) := by omega
    rcases hf : searchRoot rules watch root (r.depth + 1) r.order r.nodes with
      ⟨⟨v, m?⟩ | _ | _, n⟩
    · rw [deepen_found hf]
      dsimp only
      split <;> rename_i hmate
      · exact h.ended_complete (fun hgo => hgo.no_mate.not_ge hmate) hlt
      · split <;> rename_i hsat
        · refine (h.ended_complete (fun hgo => ?_) hlt).tell fun _ _ _ _ => nofun
          rw [hgo.not_satisfied] at hsat
          exact Bool.false_ne_true hsat
        · have hnext := ih (h.complete (m := m?.getD r.best)
            ⟨not_le.1 hmate, Bool.not_eq_true _ ▸ hsat⟩)
          rwa [Progress.depth_complete, Nat.add_assoc, Nat.add_comm 1] at hnext
    · rw [deepen_cutOff hf]
      have hcut : Progress.Ended goal (r.depth + (remaining + 1))
          { r with nodes := n, interrupted := true } :=
        ⟨hlt.le, fun d k m v ht _ => h.goesOn d k m v ht, fun hi => nomatch hi⟩
      exact hcut.tell fun _ _ _ _ => nofun
    · rw [deepen_failed hf]
      exact ⟨hlt.le, fun d k m v ht _ => h.goesOn d k m v ht, fun _ hfault => nomatch hfault⟩

theorem search_ended (h : search rules watch goal root = some r) :
    r.Ended goal goal.depthLimit.toNat := by
  obtain ⟨m, ms, -, rfl⟩ := exists_of_search h
  have hended : (deepen rules watch goal root goal.depthLimit.toNat (.start m (m :: ms))).Ended goal
      ((Progress.start m (m :: ms)).depth + goal.depthLimit.toNat) :=
    deepen_ended _ (Progress.underway_start m (m :: ms))
  rwa [show (Progress.start m (m :: ms)).depth + goal.depthLimit.toNat = goal.depthLimit.toNat from
    Nat.zero_add _] at hended

end
end Zeitnot.Search
