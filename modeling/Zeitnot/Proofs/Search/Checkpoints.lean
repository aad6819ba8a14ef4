import Mathlib.Tactic
import Zeitnot.Search.Deepening
set_option autoImplicit false

namespace Zeitnot.Search
open Number

theorem Watch.stopsAt_eq_true_iff {w : Watch} {m : Nat} :
    w.stopsAt m = .ok true ↔ w.every ≠ 0 ∧ w.every ∣ m ∧ w.expired m = true := by
  unfold stopsAt floorMod
  by_cases hw : w.every = 0
  · simp [hw, bind, Except.bind]
  · simp [hw, bind, Except.bind, pure, Except.pure, Int.dvd_iff_fmod_eq_zero]

theorem Watch.stopsAt_of_not_expired {w : Watch} {m : Nat} (hw : w.every ≠ 0)
    (he : w.expired m = false) : w.stopsAt m = .ok false := by
  simp [stopsAt, floorMod, hw, he, bind, Except.bind, pure, Except.pure]

def Watch.Clear (w : Watch) (n k : Nat) : Prop := ∀ m, n < m → m ≤ k → w.stopsAt m = .ok false

/-- What a search from node `n` has passed when it ends: everything up to its last node if it finds
something, and all but that node if it is stopped there. -/
def Watch.Passes {α : Type} (w : Watch) (n : Nat) : Outcome α × Nat → Prop
  | (.found _, k) => n ≤ k ∧ w.Clear n k
  | (.cutOff, k) => n < k ∧ w.Clear n (k - 1) ∧ w.stopsAt k = .ok true
  | (.failed fault, k) => n < k ∧ w.Clear n (k - 1) ∧ w.stopsAt k = .error fault

theorem Watch.Clear.trans {w : Watch} {n k j : Nat} (h : w.Clear n k) (h' : w.Clear k j) :
    w.Clear n j := by
  intro m hn hj
  by_cases hk : m ≤ k
  · exact h m hn hk
  · exact h' m (by omega) hj

theorem Watch.Passes.trans {α β : Type} {w : Watch} {n k : Nat} {a : α} {r : Outcome β × Nat}
    (h : w.Passes n ((.found a : Outcome α), k)) (h' : w.Passes k r) : w.Passes n r := by
  obtain ⟨o, j⟩ := r
  cases o with
  | found b => exact ⟨h.1.trans h'.1, h.2.trans h'.2⟩
  | cutOff => exact ⟨h.1.trans_lt h'.1, h.2.trans h'.2.1, h'.2.2⟩
  | failed fault => exact ⟨h.1.trans_lt h'.1, h.2.trans h'.2.1, h'.2.2⟩

theorem Watch.passes_one {α : Type} {w : Watch} {n : Nat} (h : w.stopsAt (n + 1) = .ok false)
    (a : α) : w.Passes n (.found a, n + 1) := by
  refine ⟨Nat.le_succ n, fun m hn hk => ?_⟩
  obtain rfl : m = n + 1 := by omega
  exact h

theorem Watch.passes_none {α : Type} {w : Watch} {n : Nat} {o : Outcome α}
    (h : w.stopsAt (n + 1) = .ok true ∧ o = .cutOff ∨
      ∃ fault, w.stopsAt (n + 1) = .error fault ∧ o = .failed fault) : w.Passes n (o, n + 1) := by
  obtain ⟨h, rfl⟩ | ⟨fault, h, rfl⟩ := h
  · exact ⟨Nat.lt_succ_self n, fun m hn hk => by omega, h⟩
  · exact ⟨Nat.lt_succ_self n, fun m hn hk => by omega, h⟩

theorem Watch.Passes.clear {α : Type} {w : Watch} {n k : Nat} {o : Outcome α}
    (h : w.Passes n (o, k)) : w.Clear n (k - 1) := by
  cases o with
  | found a => exact fun m hn hk => h.2 m hn (by omega)
  | cutOff => exact h.2.1
  | failed fault => exact h.2.1

theorem Watch.Clear.expired_eq_false {w : Watch} {n k m : Nat} (h : w.Clear n k) (hn : n < m)
    (hk : m ≤ k) (hd : w.every ∣ m) : w.expired m = false := by
  have hw : w.every ≠ 0 := by
    intro hw
    rw [hw, zero_dvd_iff] at hd
    omega
  have hs := h m hn hk
  cases he : w.expired m with
  | false => rfl
  | true =>
    rw [Watch.stopsAt_eq_true_iff.2 ⟨hw, hd, he⟩] at hs
    cases hs

section
variable {P M : Type} {rules : Rules P M} {watch : Watch}

def Inspect.Watched (inspect : Inspect P) (watch : Watch) : Prop :=
  ∀ alpha beta p n, watch.Passes n (inspect alpha beta p n)

theorem tryMoves_passes {inspect : Inspect P} (hi : inspect.Watched watch) (p : P)
    (beta alpha : Int) (ms : List M) (n : Nat) :
    watch.Passes n (tryMoves rules inspect p beta ms alpha n) := by
  induction ms generalizing alpha n with
  | nil => exact ⟨le_refl n, fun m hn hk => by omega⟩
  | cons m ms ih =>
    have hm := hi (-beta) (-alpha) (rules.play p m) n
    rcases hr : inspect (-beta) (-alpha) (rules.play p m) n with ⟨v | _ | fault, k⟩ <;>
      rw [hr] at hm <;> simp only [tryMoves, hr]
    · split
      · exact hm
      · exact hm.trans (ih _ k)
    · exact hm
    · exact hm

theorem alphaBeta_passes (depth ply : Nat) :
    Inspect.Watched (alphaBeta rules watch depth ply) watch := by
  induction depth generalizing ply with
  | zero =>
    intro alpha beta p n
    unfold alphaBeta
    split <;> rename_i hw
    · exact Watch.passes_none (.inr ⟨_, hw, rfl⟩)
    · exact Watch.passes_none (.inl ⟨hw, rfl⟩)
    · split <;> exact Watch.passes_one hw _
  | succ depth ih =>
    intro alpha beta p n
    unfold alphaBeta
    split <;> rename_i hw
    · exact Watch.passes_none (.inr ⟨_, hw, rfl⟩)
    · exact Watch.passes_none (.inl ⟨hw, rfl⟩)
    · split
      · exact Watch.passes_one hw _
      · exact (Watch.passes_one hw ()).trans (tryMoves_passes (ih (ply + 1)) p beta alpha _ _)

theorem tryRootMoves_passes {inspect : Inspect P} (hi : inspect.Watched watch) (root : P)
    (best : Option M) (alpha : Int) (ms : List M) (n : Nat) :
    watch.Passes n (tryRootMoves rules inspect root best alpha ms n) := by
  induction ms generalizing best alpha n with
  | nil => exact ⟨le_refl n, fun m hn hk => by omega⟩
  | cons m ms ih =>
    have hm := hi (-(mateValue + 1)) (-alpha) (rules.play root m) n
    rcases hr : inspect (-(mateValue + 1)) (-alpha) (rules.play root m) n with
      ⟨v | _ | fault, k⟩ <;> rw [hr] at hm <;> simp only [tryRootMoves, hr]
    · split <;> exact hm.trans (ih _ _ k)
    · exact hm
    · exact hm

theorem searchRoot_passes (root : P) (depth : Nat) (ms : List M) (n : Nat) :
    watch.Passes n (searchRoot rules watch root depth ms n) :=
  tryRootMoves_passes (alphaBeta_passes (depth - 1) 1) root none _ ms n

def Progress.outcome (r : Progress M) : Outcome Unit :=
  match r.fault with
  | some fault => .failed fault
  | none => if r.interrupted then .cutOff else .found ()

theorem deepen_passes [BEq M] {goal : Goal} {root : P} (remaining : Nat) {r : Progress M}
    (h : r.fault = none ∧ r.interrupted = false) :
    watch.Passes r.nodes ((deepen rules watch goal root remaining r).outcome,
      (deepen rules watch goal root remaining r).nodes) := by
  induction remaining generalizing r with
  | zero =>
    simp only [deepen, Progress.outcome, h.1, h.2]
    exact ⟨le_refl _, fun m hn hk => by omega⟩
  | succ remaining ih =>
    have hr : watch.Passes r.nodes (searchRoot rules watch root (r.depth + 1) r.order r.nodes) :=
      searchRoot_passes root (r.depth + 1) r.order r.nodes
    rcases hf : searchRoot rules watch root (r.depth + 1) r.order r.nodes with
      ⟨⟨v, m?⟩ | _ | fault, n⟩ <;> rw [hf] at hr
    · have hc : (r.complete v (m?.getD r.best) n).fault = none ∧
          (r.complete v (m?.getD r.best) n).interrupted = false := h
      have hend : (r.complete v (m?.getD r.best) n).outcome = .found () := by
        simp [Progress.outcome, hc]
      simp only [deepen_found hf]
      split
      · rw [hend]; exact hr
      · split
        · have hsatisfied : ({ r.complete v (m?.getD r.best) n with
              steps := (r.complete v (m?.getD r.best) n).steps ++
                [.satisfied (r.complete v (m?.getD r.best) n).depth n] } :
              Progress M).outcome = .found () := hend
          rw [hsatisfied]; exact hr
        · exact hr.trans (ih hc)
    · rw [deepen_cutOff hf]
      simp only [Progress.outcome, h.1]
      exact hr
    · rw [deepen_failed hf]
      exact hr

/-- A search that ends with `n` nodes has gone past no look at its watch that would have stopped
it. -/
theorem search_passes [BEq M] {goal : Goal} {root : P} {r : Progress M}
    (h : search rules watch goal root = some r) : watch.Passes 0 (r.outcome, r.nodes) := by
  obtain ⟨m, ms, -, rfl⟩ := exists_of_search h
  exact deepen_passes _ ⟨rfl, rfl⟩

end

theorem Watch.Passes.nodes_le_one {α : Type} {w : Watch} {k : Nat} {o : Outcome α}
    (h : w.Passes 0 (o, k)) (hw : w.every = 0) : k ≤ 1 := by
  by_contra hk
  have hclear := h.clear 1 (by omega) (by omega)
  simp [stopsAt, floorMod, hw, bind, Except.bind] at hclear

theorem Watch.Passes.nodes_le_of_expired {α : Type} {w : Watch} {k m : Nat} {o : Outcome α}
    (h : w.Passes 0 (o, k)) (hm : 0 < m) (hd : w.every ∣ m) (he : w.expired m = true) : k ≤ m := by
  by_contra hlt
  have hclear := h.clear.expired_eq_false hm (by omega) hd
  rw [he] at hclear
  cases hclear

/-- A search that can look at its watch ends within one interval of the last node at which the watch
has not expired. -/
theorem Watch.Passes.nodes_le_interval {α : Type} {w : Watch} {k limit : Nat} {o : Outcome α}
    (h : w.Passes 0 (o, k)) (hw : w.every ≠ 0) (he : ∀ m, limit < m → w.expired m = true) :
    (k : Int) ≤ limit + |w.every| := by
  rw [← Int.natCast_natAbs]
  have hf : 0 < w.every.natAbs := Int.natAbs_pos.2 hw
  have hdvd : ∀ m, w.every ∣ (w.every.natAbs * m : Nat) := fun m =>
    Int.natAbs_dvd.1 (Int.natCast_dvd_natCast.2 ⟨m, rfl⟩)
  generalize w.every.natAbs = f at hf hdvd
  -- The watch stops the search at the first multiple of the interval after the limit.
  have hm : limit < f * (limit / f + 1) := Nat.lt_mul_div_succ limit hf
  have hle : f * (limit / f + 1) ≤ limit + f := by
    have hdiv := Nat.mul_div_le limit f
    rw [Nat.mul_add, Nat.mul_one]
    omega
  have hend := h.nodes_le_of_expired (by omega) (hdvd _) (he _ hm)
  omega

theorem Watch.Passes.nodes_le {α : Type} {w : Watch} {k limit : Nat} {o : Outcome α}
    (h : w.Passes 0 (o, k)) (hl : 1 ≤ limit) (he : ∀ m, limit < m → w.expired m = true) :
    (k : Int) ≤ limit + |w.every| := by
  by_cases hw : w.every = 0
  · have hk := h.nodes_le_one hw
    have hinterval := abs_nonneg w.every
    omega
  · exact h.nodes_le_interval hw he

theorem Watch.stopsAt_ne_error {w : Watch} (h : w.every ≠ 0) (nodes : Nat) (fault : Fault) :
    w.stopsAt nodes ≠ .error fault := by
  simp [stopsAt, floorMod, h, bind, Except.bind, pure, Except.pure]

section
variable {P M : Type} [BEq M] {rules : Rules P M} {watch : Watch} {goal : Goal} {root : P}
  {r : Progress M}

theorem search_fault (hw : watch.every ≠ 0) (h : search rules watch goal root = some r) :
    r.fault = none := by
  cases hf : r.fault with
  | none => rfl
  | some fault =>
    have hpass := search_passes h
    simp only [Progress.outcome, hf] at hpass
    exact absurd hpass.2.2 (watch.stopsAt_ne_error hw _ _)

theorem search_interrupted_iff (hw : watch.every ≠ 0)
    (h : search rules watch goal root = some r) :
    r.interrupted = true ↔
      0 < r.nodes ∧ watch.every ∣ r.nodes ∧ watch.expired r.nodes = true := by
  have hpass := search_passes h
  simp only [Progress.outcome, search_fault hw h] at hpass
  cases hi : r.interrupted with
  | true =>
    simp only [hi, if_true] at hpass
    exact iff_of_true rfl ⟨hpass.1, (Watch.stopsAt_eq_true_iff.1 hpass.2.2).2⟩
  | false =>
    simp only [hi, Bool.false_eq_true, if_false] at hpass
    refine iff_of_false Bool.false_ne_true fun ⟨hpos, hd, he⟩ => ?_
    have hclear := hpass.2.expired_eq_false hpos le_rfl hd
    rw [he] at hclear
    cases hclear

end

end Zeitnot.Search
