import Zeitnot.Proofs.Search.Checkpoints
import Zeitnot.Proofs.Search.Interruption
import Zeitnot.Proofs.Search.Root
import Zeitnot.Search.Deepening
set_option autoImplicit false

namespace Zeitnot.Search
open Number

/-- Progress that holds the first move before any depth is completed, and after that the best move
of the last depth and its value. Of every completed depth, and of no other, it has told the best
move and its value. -/
structure Progress.Settled {P M : Type} (rules : Rules P M) (root : P) (r : Progress M) : Prop where
  mem_order : ∀ m, m ∈ r.order ↔ m ∈ rules.moves root
  first : r.depth = 0 → (rules.moves root).head? = some r.best ∧ r.value = none
  best : 0 < r.depth →
    ∃ v, r.value = some v ∧ IsBest (moveValue rules root r.depth) (rules.moves root) r.best v
  of_told : ∀ d n m v, .completed d n m v ∈ r.steps →
    0 < d ∧ d ≤ r.depth ∧ IsBest (moveValue rules root d) (rules.moves root) m v
  told_of_le : ∀ d, 0 < d → d ≤ r.depth → ∃ n m v, .completed d n m v ∈ r.steps

theorem Progress.settled_start {P M : Type} {rules : Rules P M} {root : P} {m : M} {ms : List M}
    (h : rules.moves root = m :: ms) : (Progress.start m (m :: ms)).Settled rules root :=
  ⟨fun _ => by rw [h]; rfl, fun _ => ⟨by rw [h]; rfl, rfl⟩, fun h0 => absurd h0 (Nat.lt_irrefl 0),
    fun _ _ _ _ hs => absurd hs List.not_mem_nil, fun _ hpos hle => absurd hle (Nat.not_le.2 hpos)⟩

section
variable {P M : Type} [BEq M] {rules : Rules P M} {watch watch' : Watch} {goal goal' : Goal}
  {root : P}

theorem mem_toFront [LawfulBEq M] {m m' : M} {ms : List M} (h : m ∈ ms) :
    m' ∈ toFront m ms ↔ m' ∈ ms := (toFront_perm h).mem_iff

omit [BEq M] in
theorem Progress.Settled.searchRoot_isBest (hd : rules.Decided) (hne : rules.moves root ≠ [])
    (hv : ∀ depth, ∀ m ∈ rules.moves root, Moderate (moveValue rules root depth m))
    {r : Progress M} (h : r.Settled rules root) {v : Int} {m? : Option M} {n : Nat}
    (hf : searchRoot rules watch root (r.depth + 1) r.order r.nodes = (.found (v, m?), n)) :
    ∃ m, m? = some m ∧ IsBest (moveValue rules root (r.depth + 1)) (rules.moves root) m v := by
  have hne' : r.order ≠ [] := by
    intro ho
    have hm := h.mem_order ((rules.moves root).head hne)
    simp [ho] at hm
  obtain ⟨m, hm, hb⟩ :=
    Search.searchRoot_isBest hd hne' (fun m hm => hv _ m ((h.mem_order m).1 hm)) hf
  exact ⟨m, hm, hb.of_mem_iff fun m' => (h.mem_order m').symm⟩

theorem Progress.Settled.complete [LawfulBEq M] {r : Progress M} {m : M} {v : Int} {n : Nat}
    (h : r.Settled rules root)
    (hb : IsBest (moveValue rules root (r.depth + 1)) (rules.moves root) m v) :
    (r.complete v m n).Settled rules root := by
  refine ⟨fun m' => ?_, fun h0 => absurd h0 (Nat.succ_ne_zero _), fun _ => ⟨v, rfl, hb⟩,
    fun d k m' w hs => ?_, fun d hpos hle => ?_⟩
  · exact (mem_toFront ((h.mem_order m).2 hb.mem)).trans (h.mem_order m')
  · rcases List.mem_append.1 hs with hs | hs
    · obtain ⟨hpos, hle, hbest⟩ := h.of_told d k m' w hs
      exact ⟨hpos, hle.trans (Nat.le_succ _), hbest⟩
    · cases List.mem_singleton.1 hs
      exact ⟨Nat.succ_pos _, le_rfl, hb⟩
  · rcases Nat.le_succ_iff.1 hle with hle | rfl
    · obtain ⟨k, m', w, hs⟩ := h.told_of_le d hpos hle
      exact ⟨k, m', w, List.mem_append_left _ hs⟩
    · exact ⟨n, m, v, List.mem_append_right _ (List.mem_singleton_self _)⟩

/-- What decides how a search goes on, its watch and its goal apart. -/
structure Progress.SameFindings (r r' : Progress M) : Prop where
  best : r'.best = r.best
  value : r'.value = r.value
  depth : r'.depth = r.depth
  order : r'.order = r.order

theorem Progress.SameFindings.complete {r r' : Progress M} (h : r.SameFindings r') (v : Int)
    (m : M) (n n' : Nat) : (r.complete v m n).SameFindings (r'.complete v m n') :=
  ⟨rfl, rfl, congrArg (· + 1) h.depth, by simp [Progress.complete, h.order]⟩

structure Progress.Halts (r r' : Progress M) : Prop where
  same : r.SameFindings r'
  told : ∀ d n m v, .completed d n m v ∈ r'.steps ↔ .completed d n m v ∈ r.steps

/-- What holds of some progress, and after every further depth that is completed, holds of the
progress that a search leaves. -/
theorem deepen_induction {motive : Progress M → Prop}
    (halted : ∀ r r' : Progress M, r.Halts r' → motive r → motive r')
    (completed : ∀ {r : Progress M} {v : Int} {m? : Option M} {n : Nat},
      searchRoot rules watch root (r.depth + 1) r.order r.nodes = (.found (v, m?), n) →
      motive r → motive (r.complete v (m?.getD r.best) n))
    (remaining : Nat) {r : Progress M} (h : motive r) :
    motive (deepen rules watch goal root remaining r) := by
  induction remaining generalizing r with
  | zero => exact h
  | succ remaining ih =>
    rcases hf : searchRoot rules watch root (r.depth + 1) r.order r.nodes with
      ⟨⟨v, m?⟩ | _ | _, n⟩
    · have hc := completed hf h
      simp only [deepen_found hf]
      split
      · exact hc
      · split
        · exact halted (r.complete v (m?.getD r.best) n) _ ⟨⟨rfl, rfl, rfl, rfl⟩, by simp⟩ hc
        · exact ih hc
    · rw [deepen_cutOff hf]
      exact halted r _ ⟨⟨rfl, rfl, rfl, rfl⟩, by simp⟩ h
    · rw [deepen_failed hf]
      exact halted r _ ⟨⟨rfl, rfl, rfl, rfl⟩, fun _ _ _ _ => Iff.rfl⟩ h

omit [BEq M] in
theorem Progress.Settled.of_halts {r r' : Progress M} (h : r.Settled rules root)
    (hr : r.Halts r') : r'.Settled rules root := by
  refine ⟨fun m => ?_, fun h0 => ?_, fun hpos => ?_, fun d n m v hs => ?_, fun d hpos hle => ?_⟩
  · rw [hr.same.order]
    exact h.mem_order m
  · rw [hr.same.best, hr.same.value]
    exact h.first (hr.same.depth ▸ h0)
  · rw [hr.same.best, hr.same.value, hr.same.depth]
    exact h.best (hr.same.depth ▸ hpos)
  · rw [hr.same.depth]
    exact h.of_told d n m v ((hr.told d n m v).1 hs)
  · obtain ⟨n, m, v, hs⟩ := h.told_of_le d hpos (hr.same.depth ▸ hle)
    exact ⟨n, m, v, (hr.told d n m v).2 hs⟩

theorem deepen_settled [LawfulBEq M] (hd : rules.Decided) (hne : rules.moves root ≠ [])
    (hv : ∀ depth, ∀ m ∈ rules.moves root, Moderate (moveValue rules root depth m))
    (remaining : Nat) {r : Progress M} (h : r.Settled rules root) :
    (deepen rules watch goal root remaining r).Settled rules root := by
  refine deepen_induction (fun _ _ hr h => h.of_halts hr) (fun {r v m? n} hf h => ?_) remaining h
  obtain ⟨m, rfl, hb⟩ := h.searchRoot_isBest hd hne hv hf
  exact h.complete hb

theorem depth_le_deepen (remaining : Nat) (r : Progress M) :
    r.depth ≤ (deepen rules watch goal root remaining r).depth :=
  deepen_induction (motive := fun r' => r.depth ≤ r'.depth)
    (fun _ _ hr h => h.trans_eq hr.same.depth.symm) (fun _ h => h.trans (Nat.le_succ _)) remaining
    (Nat.le_refl _)

theorem deepen_front (remaining : Nat) {r : Progress M}
    (h : 0 < r.depth → r.order.head? = some r.best) :
    0 < (deepen rules watch goal root remaining r).depth →
      (deepen rules watch goal root remaining r).order.head? =
        some (deepen rules watch goal root remaining r).best :=
  deepen_induction (motive := fun r => 0 < r.depth → r.order.head? = some r.best)
    (fun _ _ hr h hpos => by
      rw [hr.same.order, hr.same.best]
      exact h (hr.same.depth ▸ hpos))
    (fun _ _ _ => rfl) remaining h

theorem lt_deepen_depth {remaining : Nat} {r : Progress M} {found : Int × Option M} {n : Nat}
    (hf : searchRoot rules watch root (r.depth + 1) r.order r.nodes = (.found found, n)) :
    r.depth < (deepen rules watch goal root (remaining + 1) r).depth := by
  have hnext : (r.complete found.1 (found.2.getD r.best) n).depth ≤ (deepen rules watch goal root
      remaining (r.complete found.1 (found.2.getD r.best) n)).depth := depth_le_deepen remaining _
  simp only [deepen_found hf]
  split
  · exact Nat.lt_succ_self _
  · split
    · exact Nat.lt_succ_self _
    · exact hnext

omit [BEq M] in
/-- Two searches of a root with the same findings so far: where the first completes a depth, the
second completes it too, if nothing stops it, and finds the same. -/
theorem Progress.SameFindings.searchRoot_found {r r' : Progress M} (h : r.SameFindings r')
    (hw : watch'.Patient) {found : Int × Option M} {n : Nat}
    (hf : searchRoot rules watch root (r.depth + 1) r.order r.nodes = (.found found, n)) :
    ∃ n', searchRoot rules watch' root (r'.depth + 1) r'.order r'.nodes = (.found found, n') := by
  obtain ⟨found', n', hf'⟩ :
      ∃ found' n', searchRoot rules watch' root (r'.depth + 1) r'.order r'.nodes =
        (.found found', n') := searchRoot_total hw root (r'.depth + 1) r'.order r'.nodes
  rw [h.depth, h.order] at hf'
  rw [h.depth, h.order, searchRoot_agrees hf hf']
  exact ⟨n', hf'⟩

/-- Where the first search has ended, no depth is left to the second. -/
theorem Progress.SameFindings.ended {r r₁ r' : Progress M} (h : r.SameFindings r')
    (h₁ : r.SameFindings r₁) {extra : Nat} (hx : r.depth + extra = r₁.depth) :
    r₁.SameFindings (deepen rules watch' goal' root extra r') ∧
      (deepen rules watch' goal' root extra r').fault = r'.fault ∧
      (deepen rules watch' goal' root extra r').interrupted = r'.interrupted := by
  have hdepth := h₁.depth
  obtain rfl : extra = 0 := by omega
  exact ⟨⟨h.best.trans h₁.best.symm, h.value.trans h₁.value.symm, h.depth.trans h₁.depth.symm,
    h.order.trans h₁.order.symm⟩, rfl, rfl⟩

/-- A search that nothing stops, to the depth that another search has completed, leaves the same
findings as the other, if it takes no more values for mates. -/
theorem deepen_agrees (hw : watch'.Patient) (hmax : goal'.maxDepth ≤ goal.maxDepth)
    (hsat : ∀ n, goal'.satisfied n = false) (remaining : Nat) {r r' : Progress M}
    (hr : r.SameFindings r') {extra : Nat}
    (hx : r.depth + extra = (deepen rules watch goal root remaining r).depth) :
    (deepen rules watch goal root remaining r).SameFindings
        (deepen rules watch' goal' root extra r') ∧
      (deepen rules watch' goal' root extra r').fault = r'.fault ∧
      (deepen rules watch' goal' root extra r').interrupted = r'.interrupted := by
  induction remaining generalizing r r' extra with
  | zero => exact hr.ended ⟨rfl, rfl, rfl, rfl⟩ hx
  | succ remaining ih =>
    rcases hf : searchRoot rules watch root (r.depth + 1) r.order r.nodes with ⟨found | _ | _, n⟩
    · obtain ⟨v, m?⟩ := found
      have hlt : r.depth < (deepen rules watch goal root (remaining + 1) r).depth :=
        lt_deepen_depth hf
      obtain ⟨extra, rfl⟩ : ∃ k, extra = k + 1 := ⟨extra - 1, by omega⟩
      obtain ⟨n', hf'⟩ := hr.searchRoot_found hw hf
      have hc := hr.complete v (m?.getD r.best) n n'
      rw [← hr.best] at hc
      rw [← Nat.add_assoc, Nat.add_right_comm] at hx
      simp only [deepen_found hf, deepen_found hf', hsat, Bool.false_eq_true, if_false,
        ← hr.best] at hx ⊢
      split at hx <;> rename_i hmate
      · rw [if_pos hmate]
        split
        · exact ⟨hc, rfl, rfl⟩
        · exact hc.ended ⟨rfl, rfl, rfl, rfl⟩ hx
      · have hmate' : ¬ mateValue - goal'.maxDepth ≤ v.natAbs := by omega
        rw [if_neg hmate, if_neg hmate']
        split at hx <;> rename_i hg
        · rw [if_pos hg]
          refine hc.ended ?_ hx
          exact ⟨rfl, rfl, rfl, rfl⟩
        · rw [if_neg hg]
          exact ih hc hx
    · rw [deepen_cutOff hf] at hx ⊢
      refine hr.ended ?_ hx
      exact ⟨rfl, rfl, rfl, rfl⟩
    · rw [deepen_failed hf] at hx ⊢
      refine hr.ended ?_ hx
      exact ⟨rfl, rfl, rfl, rfl⟩

theorem search_settled [LawfulBEq M] {r : Progress M} (hd : rules.Decided)
    (hv : ∀ depth, ∀ m ∈ rules.moves root, Moderate (moveValue rules root depth m))
    (h : search rules watch goal root = some r) : r.Settled rules root := by
  obtain ⟨m, ms, hms, rfl⟩ := exists_of_search h
  exact deepen_settled hd (by simp [hms]) hv _ (Progress.settled_start hms)

theorem search_agrees {r : Progress M} (hw : watch'.Patient) (hmax : goal'.maxDepth ≤ goal.maxDepth)
    (hsat : ∀ n, goal'.satisfied n = false) (hlimit : goal'.depthLimit = r.depth)
    (h : search rules watch goal root = some r) :
    ∃ r', search rules watch' goal' root = some r' ∧ r.SameFindings r' ∧ r'.fault = none := by
  unfold search at h ⊢
  split at h
  · cases h
  · rename_i m ms hms
    cases h
    rw [hlimit, Int.toNat_natCast]
    have hsame : (Progress.start m (m :: ms)).SameFindings (.start m (m :: ms)) :=
      ⟨rfl, rfl, rfl, rfl⟩
    obtain ⟨hr, hfault, -⟩ := deepen_agrees hw hmax hsat goal.depthLimit.toNat hsame
      (Nat.zero_add _)
    exact ⟨_, rfl, hr, hfault⟩

theorem search_eq_of_depth_eq {r r' : Progress M} (h : search rules watch goal root = some r)
    (h' : search rules watch' goal' root = some r') (hdepth : r'.depth = r.depth) :
    r'.best = r.best ∧ r'.value = r.value := by
  -- Both are compared with a third, which nothing stops but its depth and what both take for mates.
  have hpatient : Watch.Patient ⟨1, fun _ => false⟩ :=
    fun _ => Watch.stopsAt_of_not_expired Int.one_ne_zero rfl
  let lesser : Goal := ⟨min goal.maxDepth goal'.maxDepth, r.depth, fun _ => false⟩
  obtain ⟨r₁, hr₁, hsame, -⟩ : ∃ r₁, search rules ⟨1, fun _ => false⟩ lesser root = some r₁ ∧
      r.SameFindings r₁ ∧ r₁.fault = none :=
    search_agrees hpatient (min_le_left _ _) (fun _ => rfl) rfl h
  obtain ⟨r₂, hr₂, hsame', -⟩ : ∃ r₂, search rules ⟨1, fun _ => false⟩ lesser root = some r₂ ∧
      r'.SameFindings r₂ ∧ r₂.fault = none :=
    search_agrees hpatient (min_le_right _ _) (fun _ => rfl) (by rw [hdepth]) h'
  rw [hr₁] at hr₂
  cases hr₂
  exact ⟨hsame'.best.symm.trans hsame.best, hsame'.value.symm.trans hsame.value⟩

end
end Zeitnot.Search
