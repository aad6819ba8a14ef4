import Zeitnot.Proofs.Search.Stopping
set_option autoImplicit false

namespace Zeitnot.Search
open Number

section
variable {P M : Type} (rules : Rules P M)

/-- A pass through moves of the root, each of which is looked at by one call, in their order, until
a call finds nothing: the moves that are looked at, and what the pass comes to. -/
inductive RootPass (inspect : Inspect P) (root : P) : (best : Option M) → (alpha : Int) →
    (ms : List M) → (nodes : Nat) → (looked : List M) → Outcome (Int × Option M) × Nat → Prop
  | done (best : Option M) (alpha : Int) (nodes : Nat) :
    RootPass inspect root best alpha [] nodes [] (.found (alpha, best), nodes)
  | next {best : Option M} {alpha v : Int} {m : M} {ms looked : List M} {nodes k : Nat}
      {o : Outcome (Int × Option M) × Nat}
      (call : inspect (-(mateValue + 1)) (-alpha) (rules.play root m) nodes = (.found v, k))
      (rest : RootPass inspect root (if best.isNone ∨ alpha < -v then some m else best)
        (if best.isNone ∨ alpha < -v then -v else alpha) ms k looked o) :
    RootPass inspect root best alpha (m :: ms) nodes (m :: looked) o
  | cutOff {best : Option M} {alpha : Int} {m : M} {ms : List M} {nodes k : Nat}
      (call : inspect (-(mateValue + 1)) (-alpha) (rules.play root m) nodes = (.cutOff, k)) :
    RootPass inspect root best alpha (m :: ms) nodes [m] (.cutOff, k)
  | failed {best : Option M} {alpha : Int} {m : M} {ms : List M} {nodes k : Nat} {fault : Fault}
      (call : inspect (-(mateValue + 1)) (-alpha) (rules.play root m) nodes = (.failed fault, k)) :
    RootPass inspect root best alpha (m :: ms) nodes [m] (.failed fault, k)

end

section
variable {P M : Type} {rules : Rules P M} {inspect : Inspect P} {root : P} {best : Option M}
  {alpha : Int} {ms looked : List M} {nodes : Nat} {o : Outcome (Int × Option M) × Nat}

theorem exists_rootPass (inspect : Inspect P) (root : P) (best : Option M) (alpha : Int)
    (ms : List M) (nodes : Nat) : ∃ looked, RootPass rules inspect root best alpha ms nodes looked
      (tryRootMoves rules inspect root best alpha ms nodes) := by
  induction ms generalizing best alpha nodes with
  | nil => exact ⟨[], .done best alpha nodes⟩
  | cons m ms ih =>
    rcases hcall : inspect (-(mateValue + 1)) (-alpha) (rules.play root m) nodes with
      ⟨v | _ | fault, k⟩
    · obtain ⟨looked, hrest⟩ := ih (if best.isNone ∨ alpha < -v then some m else best)
        (if best.isNone ∨ alpha < -v then -v else alpha) k
      refine ⟨m :: looked, .next hcall ?_⟩
      simp only [tryRootMoves, hcall]
      split at hrest <;> rename_i hc
      · simpa only [if_pos hc] using hrest
      · simpa only [if_neg hc] using hrest
    · simp only [tryRootMoves, hcall]
      exact ⟨[m], .cutOff hcall⟩
    · simp only [tryRootMoves, hcall]
      exact ⟨[m], .failed hcall⟩

theorem searchRoot_pass (rules : Rules P M) (watch : Watch) (root : P) (depth : Nat) (ms : List M)
    (nodes : Nat) : ∃ looked, RootPass rules (alphaBeta rules watch depth 1) root none
      (-mateValue - 1) ms nodes looked (searchRoot rules watch root (depth + 1) ms nodes) :=
  exists_rootPass ..

theorem RootPass.looked_front (h : RootPass rules inspect root best alpha ms nodes looked o) :
    looked <+: ms := by
  induction h with
  | done => exact List.nil_prefix
  | next _ _ ih => exact List.cons_prefix_cons.2 ⟨rfl, ih⟩
  | cutOff => exact List.cons_prefix_cons.2 ⟨rfl, List.nil_prefix⟩
  | failed => exact List.cons_prefix_cons.2 ⟨rfl, List.nil_prefix⟩

theorem RootPass.looked_all (h : RootPass rules inspect root best alpha ms nodes looked o)
    {found : Int × Option M} (ho : o.1 = .found found) : looked = ms := by
  induction h with
  | done => rfl
  | next _ _ ih => rw [ih ho]
  | cutOff => cases ho
  | failed => cases ho

theorem RootPass.move_mem (h : RootPass rules inspect root best alpha ms nodes looked o) {v : Int}
    {m? : Option M} (ho : o.1 = .found (v, m?)) : m? = best ∨ ∃ m ∈ ms, m? = some m := by
  induction h with
  | done =>
    cases ho
    exact .inl rfl
  | @next best _ _ m ms _ _ _ _ _ _ ih =>
    rcases ih ho with hbest | ⟨m', hm', rfl⟩
    · split at hbest
      · exact .inr ⟨m, List.mem_cons_self, hbest⟩
      · exact .inl hbest
    · exact .inr ⟨m', List.mem_cons_of_mem _ hm', rfl⟩
  | cutOff => cases ho
  | failed => cases ho

end

section
variable {P M : Type} [BEq M] (rules : Rules P M) (watch : Watch) (goal : Goal) (root : P)

/-- Progress at which a search stands before it starts a depth, if the limit leaves one. -/
inductive Reached : Progress M → Prop
  | start {m : M} {ms : List M} (moves : rules.moves root = m :: ms) :
    Reached (.start m (m :: ms))
  | next {r : Progress M} {v : Int} {m? : Option M} {n : Nat} (before : Reached r)
      (found : searchRoot rules watch root (r.depth + 1) r.order r.nodes = (.found (v, m?), n))
      (goesOn : goal.GoesOn v n) :
    Reached (r.complete v (m?.getD r.best) n)

structure Progress.KeepsMoves (r : Progress M) : Prop where
  perm : r.order.Perm (rules.moves root)
  best_mem : r.best ∈ r.order

/-- How the next depth goes through the moves: it looks at them once from the first on, and at all
of them unless it is cut off or fails. -/
structure Progress.LooksOnce (r : Progress M) (looked : List M) : Prop where
  pass : RootPass rules (alphaBeta rules watch r.depth 1) root none (-mateValue - 1) r.order r.nodes
    looked (searchRoot rules watch root (r.depth + 1) r.order r.nodes)
  front : looked <+: r.order
  all : ∀ found n, searchRoot rules watch root (r.depth + 1) r.order r.nodes = (.found found, n) →
    looked.Perm (rules.moves root)

end

section
variable {P M : Type} [BEq M] {rules : Rules P M} {watch : Watch} {goal : Goal} {root : P}
  {r : Progress M}

theorem Reached.search_eq (h : Reached rules watch goal root r)
    (hle : r.depth ≤ goal.depthLimit.toNat) : search rules watch goal root =
      some (deepen rules watch goal root (goal.depthLimit.toNat - r.depth) r) := by
  induction h with
  | start moves =>
    unfold search
    rw [moves]
    rfl
  | @next r v m? n _ found goesOn ih =>
    rw [Progress.depth_complete] at hle ⊢
    have hmate : ¬ mateValue - goal.maxDepth ≤ v.natAbs := not_le.2 goesOn.no_mate
    obtain ⟨left, hleft⟩ : ∃ left, goal.depthLimit.toNat - r.depth = left + 1 :=
      ⟨goal.depthLimit.toNat - (r.depth + 1), by omega⟩
    rw [ih (by omega), hleft, deepen_found found]
    simp only [if_neg hmate, goesOn.not_satisfied, Bool.false_eq_true, if_false]
    rw [show goal.depthLimit.toNat - (r.depth + 1) = left by omega]

omit [BEq M] in
theorem Progress.keepsMoves_start {m : M} {ms : List M} (h : rules.moves root = m :: ms) :
    (Progress.start m (m :: ms)).KeepsMoves rules root :=
  ⟨by rw [h]; exact .refl _, List.mem_cons_self⟩

omit [BEq M] in
theorem Progress.KeepsMoves.found_mem (h : r.KeepsMoves rules root) {v : Int} {m? : Option M}
    {n : Nat}
    (hf : searchRoot rules watch root (r.depth + 1) r.order r.nodes = (.found (v, m?), n)) :
    m?.getD r.best ∈ r.order := by
  obtain ⟨looked, hpass⟩ := searchRoot_pass rules watch root r.depth r.order r.nodes
  rw [hf] at hpass
  rcases hpass.move_mem rfl with rfl | ⟨m, hm, rfl⟩
  · exact h.best_mem
  · exact hm

theorem Progress.KeepsMoves.complete [LawfulBEq M] (h : r.KeepsMoves rules root) {v : Int} {m : M}
    {n : Nat} (hm : m ∈ r.order) : (r.complete v m n).KeepsMoves rules root :=
  ⟨(toFront_perm hm).trans h.perm, List.mem_cons_self⟩

omit [BEq M] in
theorem Progress.KeepsMoves.of_halts {r' : Progress M} (h : r.KeepsMoves rules root)
    (hr : r.Halts r') : r'.KeepsMoves rules root := by
  refine ⟨?_, ?_⟩
  · rw [hr.same.order]
    exact h.perm
  · rw [hr.same.order, hr.same.best]
    exact h.best_mem

theorem Reached.keepsMoves [LawfulBEq M] (h : Reached rules watch goal root r) :
    r.KeepsMoves rules root := by
  induction h with
  | start moves => exact Progress.keepsMoves_start moves
  | next _ found _ ih => exact ih.complete (ih.found_mem found)

theorem search_keepsMoves [LawfulBEq M] (h : search rules watch goal root = some r) :
    r.KeepsMoves rules root := by
  obtain ⟨m, ms, hms, rfl⟩ := exists_of_search h
  exact deepen_induction (fun _ _ hr h => h.of_halts hr) (fun hf h => h.complete (h.found_mem hf))
    _ (Progress.keepsMoves_start hms)

omit [BEq M] in
theorem Progress.KeepsMoves.exists_looksOnce (h : r.KeepsMoves rules root) (watch : Watch) :
    ∃ looked, r.LooksOnce rules watch root looked := by
  obtain ⟨looked, hpass⟩ := searchRoot_pass rules watch root r.depth r.order r.nodes
  refine ⟨looked, hpass, hpass.looked_front, fun found n hf => ?_⟩
  rw [hf] at hpass
  rw [hpass.looked_all rfl]
  exact h.perm

omit [BEq M] in
theorem Progress.LooksOnce.nodup {looked : List M} (h : r.LooksOnce rules watch root looked)
    (hr : r.KeepsMoves rules root) (hroot : (rules.moves root).Nodup) : looked.Nodup :=
  (hr.perm.nodup_iff.2 hroot).sublist h.front.sublist

end
end Zeitnot.Search
