import Mathlib.Tactic
import Zeitnot.Search.AlphaBeta
/-!
Interruptions leave no trace in a value: two searches of the same position that both come to an end
find the same, whatever their watches and however many nodes were counted before them. A search
whose watch never stops it does come to an end.
-/
set_option autoImplicit false

namespace Zeitnot.Search
open Number

/-- Searches that never find different values. -/
def Inspect.Agrees {P : Type} (i j : Inspect P) : Prop :=
  ∀ ⦃alpha beta p n n' v w k k'⦄, i alpha beta p n = (.found v, k) →
    j alpha beta p n' = (.found w, k') → v = w

def Inspect.Total {P : Type} (i : Inspect P) : Prop :=
  ∀ alpha beta p n, ∃ v k, i alpha beta p n = (.found v, k)

def Watch.Patient (w : Watch) : Prop := ∀ nodes, w.stopsAt nodes = .ok false

section
variable {P M : Type} {rules : Rules P M} {watch watch' : Watch}

theorem tryMoves_agrees {i j : Inspect P} (hij : i.Agrees j) {p : P} {alpha beta v w : Int}
    {ms : List M} {n n' k k' : Nat} (hv : tryMoves rules i p beta ms alpha n = (.found v, k))
    (hw : tryMoves rules j p beta ms alpha n' = (.found w, k')) : v = w := by
  induction ms generalizing alpha n n' with
  | nil =>
    simp only [tryMoves, Prod.mk.injEq, Outcome.found.injEq] at hv hw
    exact hv.1.symm.trans hw.1
  | cons m ms ih =>
    simp only [tryMoves] at hv hw
    split at hv
    · split at hw
      · rename_i _ a _ hi _ b _ hj
        have hab : a = b := hij hi hj
        subst hab
        split at hv <;> rename_i hc
        · rw [if_pos hc] at hw
          simp only [Prod.mk.injEq, Outcome.found.injEq] at hv hw
          exact hv.1.symm.trans hw.1
        · rw [if_neg hc] at hw
          exact ih hv hw
      · rename_i hn
        exact absurd hw (hn _ _)
    · rename_i hn
      exact absurd hv (hn _ _)

theorem alphaBeta_agrees (depth ply : Nat) :
    Inspect.Agrees (alphaBeta rules watch depth ply) (alphaBeta rules watch' depth ply) := by
  induction depth generalizing ply with
  | zero =>
    intro alpha beta p n n' v w k k' hv hw
    unfold alphaBeta at hv hw
    split at hv <;> try simp at hv
    split at hw <;> try simp at hw
    cases ht : rules.terminal? p ply <;> simp [ht] at hv hw <;>
      exact hv.1.symm.trans hw.1
  | succ depth ih =>
    intro alpha beta p n n' v w k k' hv hw
    unfold alphaBeta at hv hw
    split at hv <;> try simp at hv
    split at hw <;> try simp at hw
    cases ht : rules.terminal? p ply with
    | some a =>
      simp [ht] at hv hw
      exact hv.1.symm.trans hw.1
    | none =>
      simp only [ht] at hv hw
      exact tryMoves_agrees (ih (ply + 1)) hv hw

theorem tryRootMoves_agrees {i j : Inspect P} (hij : i.Agrees j) {root : P} {best : Option M}
    {alpha : Int} {ms : List M} {r r' : Int × Option M} {n n' k k' : Nat}
    (hr : tryRootMoves rules i root best alpha ms n = (.found r, k))
    (hr' : tryRootMoves rules j root best alpha ms n' = (.found r', k')) : r = r' := by
  induction ms generalizing best alpha n n' with
  | nil =>
    simp only [tryRootMoves, Prod.mk.injEq, Outcome.found.injEq] at hr hr'
    exact hr.1.symm.trans hr'.1
  | cons m ms ih =>
    simp only [tryRootMoves] at hr hr'
    split at hr <;> try simp at hr
    split at hr' <;> try simp at hr'
    rename_i _ a _ hi _ b _ hj
    have hab : a = b := hij hi hj
    subst hab
    split at hr <;> rename_i hc
    · rw [if_pos hc] at hr'
      exact ih hr hr'
    · rw [if_neg hc] at hr'
      exact ih hr hr'

theorem searchRoot_agrees {root : P} {depth : Nat} {ms : List M} {r r' : Int × Option M}
    {n n' k k' : Nat} (hr : searchRoot rules watch root depth ms n = (.found r, k))
    (hr' : searchRoot rules watch' root depth ms n' = (.found r', k')) : r = r' :=
  tryRootMoves_agrees (alphaBeta_agrees (depth - 1) 1) hr hr'

theorem tryMoves_total {i : Inspect P} (hi : i.Total) (p : P) (beta alpha : Int) (ms : List M)
    (n : Nat) : ∃ v k, tryMoves rules i p beta ms alpha n = (.found v, k) := by
  induction ms generalizing alpha n with
  | nil => exact ⟨alpha, n, rfl⟩
  | cons m ms ih =>
    obtain ⟨v, k, hv⟩ := hi (-beta) (-alpha) (rules.play p m) n
    simp only [tryMoves, hv]
    split
    · exact ⟨beta, k, rfl⟩
    · exact ih _ _

theorem alphaBeta_total (hw : watch.Patient) (depth ply : Nat) :
    Inspect.Total (alphaBeta rules watch depth ply) := by
  induction depth generalizing ply with
  | zero =>
    intro alpha beta p n
    unfold alphaBeta
    cases ht : rules.terminal? p ply <;> simp [hw (n + 1)]
  | succ depth ih =>
    intro alpha beta p n
    unfold alphaBeta
    cases ht : rules.terminal? p ply with
    | some v => simp [hw (n + 1)]
    | none =>
      simp only [hw (n + 1)]
      exact tryMoves_total (ih (ply + 1)) p beta alpha _ _

theorem tryRootMoves_total {i : Inspect P} (hi : i.Total) (root : P) (best : Option M)
    (alpha : Int) (ms : List M) (n : Nat) :
    ∃ r k, tryRootMoves rules i root best alpha ms n = (.found r, k) := by
  induction ms generalizing best alpha n with
  | nil => exact ⟨_, n, rfl⟩
  | cons m ms ih =>
    obtain ⟨v, k, hv⟩ := hi (-(mateValue + 1)) (-alpha) (rules.play root m) n
    simp only [tryRootMoves, hv]
    split
    · exact ih _ _ _
    · exact ih _ _ _

theorem searchRoot_total (hw : watch.Patient) (root : P) (depth : Nat) (ms : List M) (n : Nat) :
    ∃ r k, searchRoot rules watch root depth ms n = (.found r, k) :=
  tryRootMoves_total (alphaBeta_total hw (depth - 1) 1) root none _ ms n

end
end Zeitnot.Search
