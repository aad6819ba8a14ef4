import Zeitnot.Proofs.Search.Deepening
import Zeitnot.Proofs.Search.Mates
/-!
A search that has found a mate can carry on: every further depth finds the same mate and the same
move, whether the side to move wins or loses. So it loses nothing if it stops there.
-/
set_option autoImplicit false

namespace Zeitnot.Search
open Number

structure Goal.Unreachable (goal : Goal) : Prop where
  maxDepth_neg : goal.maxDepth < 0
  satisfied_eq : ∀ nodes, goal.satisfied nodes = false

structure Progress.Mated {P M : Type} (rules : Rules P M) (root : P) (v : Int) (r : Progress M) :
    Prop where
  settled : r.Settled rules root
  front : r.order.head? = some r.best
  best : IsBest (moveValue rules root r.depth) (rules.moves root) r.best v
  depth_pos : 0 < r.depth
  mate : -matedAt r.depth ≤ v ∨ v ≤ matedAt r.depth

section
variable {P M : Type} [BEq M] {rules : Rules P M} {watch : Watch} {goal : Goal} {root : P}
  {horizon v : Int} {r : Progress M}

theorem Goal.Unreachable.deepen_found (hg : goal.Unreachable) (hv : Moderate v) {remaining : Nat}
    {m? : Option M} {n : Nat}
    (h : searchRoot rules watch root (r.depth + 1) r.order r.nodes = (.found (v, m?), n)) :
    deepen rules watch goal root (remaining + 1) r =
      deepen rules watch goal root remaining (r.complete v (m?.getD r.best) n) := by
  have hbelow : ¬ mateValue - goal.maxDepth ≤ v.natAbs := by
    have hneg := hg.maxDepth_neg
    simp only [Moderate] at hv
    omega
  simp only [Search.deepen_found h, if_neg hbelow, hg.satisfied_eq, Bool.false_eq_true, if_false]

theorem Progress.Mated.step [LawfulBEq M] (hd : rules.Decided) (hb : rules.MatesOutweigh horizon)
    (hv : ∀ depth, ∀ m ∈ rules.moves root, Moderate (moveValue rules root depth m))
    (hw : watch.Patient) (h : r.Mated rules root v)
    (hnext : ((r.depth + 1 : Nat) : Int) ≤ horizon) :
    ∃ n, searchRoot rules watch root (r.depth + 1) r.order r.nodes = (.found (v, some r.best), n) ∧
      (r.complete v r.best n).Mated rules root v := by
  have hbest : IsBest (moveValue rules root (r.depth + 1)) (rules.moves root) r.best v :=
    h.best.stable hd hb h.depth_pos (Nat.le_succ _) hnext h.mate
  obtain ⟨rest, horder⟩ := List.head?_eq_some_iff.1 h.front
  have hmem : ∀ m, m ∈ r.best :: rest ↔ m ∈ rules.moves root := horder ▸ h.settled.mem_order
  obtain ⟨⟨w, m?⟩, n, hf⟩ := searchRoot_total hw root (r.depth + 1) r.order r.nodes
  rw [horder] at hf
  obtain ⟨rfl, rfl⟩ :=
    searchRoot_first hd (fun m hm => hv _ m ((hmem m).1 hm)) (hbest.of_mem_iff hmem) hf
  refine ⟨n, horder ▸ hf, h.settled.complete hbest, rfl, hbest, Nat.succ_pos _, ?_⟩
  have hmate := h.mate
  simp only [Progress.depth_complete, matedAt] at hmate ⊢
  omega

/-- However many depths a search carries on after a mate, it keeps the mate and the move. -/
theorem Progress.Mated.carry_on [LawfulBEq M] (hd : rules.Decided)
    (hb : rules.MatesOutweigh horizon)
    (hv : ∀ depth, ∀ m ∈ rules.moves root, Moderate (moveValue rules root depth m))
    (hw : watch.Patient) (hg : goal.Unreachable) (more : Nat) (h : r.Mated rules root v)
    (hmore : ((r.depth + more : Nat) : Int) ≤ horizon) :
    (deepen rules watch goal root more r).Mated rules root v ∧
      (deepen rules watch goal root more r).depth = r.depth + more ∧
      (deepen rules watch goal root more r).best = r.best := by
  induction more generalizing r with
  | zero => exact ⟨h, rfl, rfl⟩
  | succ more ih =>
    obtain ⟨n, hf, hnext⟩ := h.step hd hb hv hw (by omega)
    have hmoderate : Moderate v := h.best.score_eq ▸ hv _ r.best h.best.mem
    rw [hg.deepen_found hmoderate hf, Option.getD_some]
    obtain ⟨hmated, hdepth, hbest⟩ := ih hnext (by rw [Progress.depth_complete]; omega)
    exact ⟨hmated, by rw [hdepth, Progress.depth_complete]; omega, hbest⟩

omit [BEq M] in
theorem Progress.Mated.value_eq (h : r.Mated rules root v) : r.value = some v := by
  obtain ⟨w, hvalue, hbest⟩ := h.settled.best h.depth_pos
  rw [hvalue, ← hbest.score_eq, h.best.score_eq]

theorem search_front (h : search rules watch goal root = some r) (hpos : 0 < r.depth) :
    r.order.head? = some r.best := by
  obtain ⟨m, ms, -, rfl⟩ := exists_of_search h
  exact deepen_front _ (fun h0 => absurd h0 (Nat.lt_irrefl 0)) hpos

theorem search_mated [LawfulBEq M] (hd : rules.Decided) (hb : rules.MatesOutweigh horizon)
    (hv : ∀ depth, ∀ m ∈ rules.moves root, Moderate (moveValue rules root depth m))
    (h : search rules watch goal root = some r) (hvalue : r.value = some v)
    (hmate : mateValue - horizon ≤ |v|) (hdepth : (r.depth : Int) ≤ horizon) :
    r.Mated rules root v := by
  have hsettled := search_settled hd hv h
  have hpos : 0 < r.depth := by
    refine Nat.pos_of_ne_zero fun h0 => ?_
    rw [(hsettled.first h0).2] at hvalue
    cases hvalue
  obtain ⟨w, hw, hbest⟩ := hsettled.best hpos
  obtain rfl : w = v := Option.some.inj (hw.symm.trans hvalue)
  refine ⟨hsettled, search_front h hpos, hbest, hpos, ?_⟩
  have hcases := (hbest.mateScore hd hb hpos hdepth).mate_or_material
  rw [Nat.zero_add] at hcases
  exact hcases.imp_right fun hc => hc.resolve_right hmate.not_gt

end
end Zeitnot.Search
