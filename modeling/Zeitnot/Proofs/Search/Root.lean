import Zeitnot.Proofs.Search.Window
set_option autoImplicit false

namespace Zeitnot.Search
open Number

/-- A move of some moves that has the greatest score, and its score. -/
structure IsBest {M : Type} (score : M → Int) (ms : List M) (m : M) (v : Int) : Prop where
  mem : m ∈ ms
  score_eq : score m = v
  score_le : ∀ m' ∈ ms, score m' ≤ v

theorem IsBest.of_mem_iff {M : Type} {score : M → Int} {ms ms' : List M} {m : M} {v : Int}
    (h : IsBest score ms m v) (hp : ∀ m', m' ∈ ms' ↔ m' ∈ ms) : IsBest score ms' m v :=
  ⟨(hp m).2 h.mem, h.score_eq, fun m' hm => h.score_le m' ((hp m').1 hm)⟩

theorem IsBest.value_eq {M : Type} {score : M → Int} {ms : List M} {m : M} {v least : Int}
    (h : IsBest score ms m v) : greatestOr least (ms.map score) = v := by
  apply greatestOr_eq
  · exact List.mem_map.2 ⟨m, h.mem, h.score_eq⟩
  · intro w hw
    obtain ⟨m', hm, rfl⟩ := List.mem_map.1 hw
    exact h.score_le m' hm

/-- A score between being mated on the spot and giving mate on the spot. -/
def Moderate (v : Int) : Prop := -mateValue ≤ v ∧ v ≤ mateValue

section
variable {P M : Type} {rules : Rules P M} {watch : Watch}

/-- Going on from the best of the moves seen so far, the root's search finds the best of all. -/
theorem tryRootMoves_found {inspect : Inspect P} {value : P → Int} (hs : inspect.Sound value)
    {root : P} {seen ms : List M} {best : M} {alpha v : Int} {m? : Option M} {n k : Nat}
    (hb : IsBest (fun m => -value (rules.play root m)) seen best alpha)
    (hv : ∀ m ∈ seen ++ ms, Moderate (-value (rules.play root m)))
    (h : tryRootMoves rules inspect root (some best) alpha ms n = (.found (v, m?), k)) :
    ∃ m, m? = some m ∧ IsBest (fun m => -value (rules.play root m)) (seen ++ ms) m v := by
  induction ms generalizing seen best alpha n with
  | nil =>
    simp only [tryRootMoves, Prod.mk.injEq, Outcome.found.injEq] at h
    obtain ⟨⟨rfl, rfl⟩, -⟩ := h
    exact ⟨best, rfl, by simpa using hb⟩
  | cons m ms ih =>
    have hbest := hv best (List.mem_append_left _ hb.mem)
    have hm := hv m (by simp)
    have hscore := hb.score_eq
    have hseen : ∀ m' ∈ seen ++ [m] ++ ms, Moderate (-value (rules.play root m')) := by
      simpa using hv
    simp only [Moderate] at hbest hm hscore
    simp only [tryRootMoves] at h
    split at h
    · rename_i w k' hf
      have hl := hs (by omega) hf
      have hle := hl.le_alpha_iff
      have hge := hl.beta_le_iff
      have hin := hl.eq_of_inside
      split at h
      · rename_i hc
        -- A greater value lies inside the window, so it is exact.
        have hw : w = value (rules.play root m) := by
          have : alpha < -w := by simpa using hc
          exact hin (by omega) (by omega)
        subst hw
        have hlt : alpha < -value (rules.play root m) := by simpa using hc
        have hnext : IsBest (fun m => -value (rules.play root m)) (seen ++ [m]) m
            (-value (rules.play root m)) := by
          refine ⟨by simp, rfl, fun m' hm' => ?_⟩
          rcases List.mem_append.1 hm' with hm' | hm'
          · exact (hb.score_le m' hm').trans hlt.le
          · rw [List.mem_singleton.1 hm']
        simpa using ih hnext hseen h
      · rename_i hc
        have hlow : -value (rules.play root m) ≤ alpha := by
          have : ¬ alpha < -w := by simpa using hc
          omega
        have hnext : IsBest (fun m => -value (rules.play root m)) (seen ++ [m]) best alpha := by
          refine ⟨by simp [hb.mem], hb.score_eq, fun m' hm' => ?_⟩
          rcases List.mem_append.1 hm' with hm' | hm'
          · exact hb.score_le m' hm'
          · rw [List.mem_singleton.1 hm']; exact hlow
        simpa using ih hnext hseen h
    · simp at h
    · simp at h

theorem searchRoot_cons (hd : rules.Decided) {root : P} {depth : Nat} {m : M} {ms : List M}
    {found : Int × Option M} {n k : Nat} (hm : Moderate (moveValue rules root depth m))
    (h : searchRoot rules watch root depth (m :: ms) n = (.found found, k)) :
    ∃ n', tryRootMoves rules (alphaBeta rules watch (depth - 1) 1) root (some m)
      (moveValue rules root depth m) ms n' = (.found found, k) := by
  have hs : Inspect.Sound (alphaBeta rules watch (depth - 1) 1) (negamax rules (depth - 1) 1) :=
    alphaBeta_sound hd (depth - 1) 1
  simp only [Moderate, moveValue] at hm
  simp only [searchRoot, tryRootMoves] at h
  split at h
  · rename_i w n' hf
    have hl := hs (by omega) hf
    have hle := hl.le_alpha_iff
    have hge := hl.beta_le_iff
    have hw : w = negamax rules (depth - 1) 1 (rules.play root m) :=
      hl.eq_of_inside (by omega) (by omega)
    rw [if_pos (by simp), hw] at h
    exact ⟨n', h⟩
  · simp at h
  · simp at h

theorem searchRoot_isBest (hd : rules.Decided) {root : P} {depth : Nat} {ms : List M} {v : Int}
    {m? : Option M} {n k : Nat} (hms : ms ≠ [])
    (hv : ∀ m ∈ ms, Moderate (moveValue rules root depth m))
    (h : searchRoot rules watch root depth ms n = (.found (v, m?), k)) :
    ∃ m, m? = some m ∧ IsBest (moveValue rules root depth) ms m v := by
  cases ms with
  | nil => contradiction
  | cons m ms =>
    obtain ⟨n', hrest⟩ := searchRoot_cons hd (hv m List.mem_cons_self) h
    have hfirst : IsBest (moveValue rules root depth) [m] m (moveValue rules root depth m) :=
      ⟨by simp, rfl, by simp⟩
    exact tryRootMoves_found (alphaBeta_sound hd (depth - 1) 1) hfirst hv hrest

theorem tryRootMoves_keeps {inspect : Inspect P} {value : P → Int} (hs : inspect.Sound value)
    {root : P} {best : M} {alpha v : Int} {ms : List M} {m? : Option M} {n k : Nat}
    (ha : alpha ≤ mateValue) (hms : ∀ m ∈ ms, -value (rules.play root m) ≤ alpha)
    (h : tryRootMoves rules inspect root (some best) alpha ms n = (.found (v, m?), k)) :
    v = alpha ∧ m? = some best := by
  induction ms generalizing n with
  | nil =>
    simp only [tryRootMoves, Prod.mk.injEq, Outcome.found.injEq] at h
    exact ⟨h.1.1.symm, h.1.2.symm⟩
  | cons m ms ih =>
    simp only [tryRootMoves] at h
    split at h
    · rename_i w _ hf
      have hge := (hs (by omega) hf).beta_le_iff
      have hm := hms m List.mem_cons_self
      have hnot : ¬ ((some best).isNone ∨ alpha < -w) := by
        simp only [Option.isNone_some, Bool.false_eq_true, false_or]
        omega
      rw [if_neg hnot] at h
      exact ih (fun m' hm' => hms m' (List.mem_cons_of_mem _ hm')) h
    · simp at h
    · simp at h

theorem searchRoot_first (hd : rules.Decided) {root : P} {depth : Nat} {m : M} {ms : List M}
    {v w : Int} {m? : Option M} {n k : Nat}
    (hv : ∀ m' ∈ m :: ms, Moderate (moveValue rules root depth m'))
    (hb : IsBest (moveValue rules root depth) (m :: ms) m v)
    (h : searchRoot rules watch root depth (m :: ms) n = (.found (w, m?), k)) :
    w = v ∧ m? = some m := by
  obtain ⟨n', hrest⟩ := searchRoot_cons hd (hv m List.mem_cons_self) h
  rw [hb.score_eq] at hrest
  have hle : v ≤ mateValue := hb.score_eq ▸ (hv m List.mem_cons_self).2
  exact tryRootMoves_keeps (alphaBeta_sound hd (depth - 1) 1) hle
    (fun m' hm' => hb.score_le m' (List.mem_cons_of_mem _ hm')) hrest

end
end Zeitnot.Search
