import Zeitnot.Proofs.Search.Root
set_option autoImplicit false

namespace Zeitnot.Search

theorem Moderate.neg {v : Int} (h : Moderate v) : Moderate (-v) := by
  unfold Moderate at *; omega

section
variable {P M : Type} {rules : Rules P M}

theorem moderate_of_terminal {p : P} {ply : Nat} {v : Int} (h : (ply : Int) ≤ 2 * mateValue)
    (ht : rules.terminal? p ply = some v) : Moderate v := by
  unfold Rules.terminal? at ht
  split at ht
  · cases ht
    unfold Moderate matedAt; omega
  · split at ht
    · cases ht
      unfold Moderate mateValue; omega
    · cases ht

/-- Values of positions that are moderate, and a count that every move lowers while the game goes
on. -/
structure Rules.Finite (rules : Rules P M) (length : P → Nat) : Prop where
  decided : rules.Decided
  evaluate : ∀ p, Moderate (rules.evaluate p)
  play_lt : ∀ {p m}, rules.isMate p = false → rules.isDrawn p = false → m ∈ rules.moves p →
    length (rules.play p m) < length p

theorem negamax_moderate {length : P → Nat} (hf : rules.Finite length) (depth : Nat) {ply : Nat}
    {p : P} (h : ((ply + length p : Nat) : Int) ≤ 2 * mateValue) :
    Moderate (negamax rules depth ply p) := by
  induction depth generalizing ply p with
  | zero =>
    cases ht : rules.terminal? p ply with
    | some v => simpa [negamax, ht] using moderate_of_terminal (by omega) ht
    | none => simpa [negamax, ht] using hf.evaluate p
  | succ depth ih =>
    cases ht : rules.terminal? p ply with
    | some v => simpa [negamax, ht] using moderate_of_terminal (by omega) ht
    | none =>
      obtain ⟨hmate, hdrawn⟩ := rules.terminal?_eq_none_iff.1 ht
      have hvs : (rules.moves p).map
          (fun m => -negamax rules depth (ply + 1) (rules.play p m)) ≠ [] := by
        simpa using hf.decided.moves_ne_nil hmate hdrawn
      obtain ⟨m, hmem, hg⟩ := List.mem_map.1 (greatestOr_mem (-mateValue - 1) hvs)
      have hlt := hf.play_lt hmate hdrawn hmem
      simp only [negamax, ht]
      rw [← hg]
      exact (ih (by omega)).neg

theorem moveValue_moderate {length : P → Nat} (hf : rules.Finite length) {root : P}
    (h : ∀ p, ((length p + 1 : Nat) : Int) ≤ 2 * mateValue) (depth : Nat) (m : M) :
    Moderate (moveValue rules root depth m) := by
  have hp := h (rules.play root m)
  exact (negamax_moderate hf _ (by omega)).neg

end
end Zeitnot.Search
