import Mathlib.Tactic
import Zeitnot.Search.AlphaBeta
/-!
What a search within a window tells of a position. The search that prunes does not find the value
of a position, but on which side of the window it lies, and the value itself if it lies inside.
-/
set_option autoImplicit false

namespace Zeitnot.Search
open Number

/-- The game goes on only where there is a move. -/
def Rules.Decided {P M : Type} (rules : Rules P M) : Prop :=
  ∀ p, rules.moves p = [] → rules.isMate p = true ∨ rules.isDrawn p = true

theorem Rules.Decided.moves_ne_nil {P M : Type} {rules : Rules P M} {p : P} (hd : rules.Decided)
    (hm : rules.isMate p = false) (hdrawn : rules.isDrawn p = false) : rules.moves p ≠ [] := by
  intro hp
  rcases hd p hp with h | h
  · exact Bool.false_ne_true (hm.symm.trans h)
  · exact Bool.false_ne_true (hdrawn.symm.trans h)

/-- What `found` tells of a value: its side of the window, or all. -/
structure Locates (alpha beta found value : Int) : Prop where
  le_alpha_iff : found ≤ alpha ↔ value ≤ alpha
  beta_le_iff : beta ≤ found ↔ beta ≤ value
  eq_of_inside : alpha < found → found < beta → found = value

theorem Locates.refl (alpha beta value : Int) : Locates alpha beta value value :=
  ⟨Iff.rfl, Iff.rfl, fun _ _ => rfl⟩

theorem Locates.clamp {alpha beta : Int} (h : alpha < beta) (value : Int) :
    Locates alpha beta (min beta (max alpha value)) value := by
  constructor <;> omega

section Greatest

theorem greatestOr_mem (least : Int) {vs : List Int} (h : vs ≠ []) : greatestOr least vs ∈ vs := by
  fun_induction greatestOr least vs with
  | case1 => contradiction
  | case2 v => simp
  | case3 v w vs ih =>
    have hw := ih (by simp)
    rcases max_choice v (greatestOr least (w :: vs)) with hv | hv <;> rw [hv]
    · simp
    · exact List.mem_cons_of_mem _ hw

theorem le_greatestOr (least : Int) {v : Int} {vs : List Int} (h : v ∈ vs) :
    v ≤ greatestOr least vs := by
  fun_induction greatestOr least vs with
  | case1 => simp at h
  | case2 w => simp_all
  | case3 u w vs ih =>
    rcases List.mem_cons.1 h with rfl | h
    · exact le_max_left _ _
    · exact (ih h).trans (le_max_right _ _)

theorem greatestOr_eq {least v : Int} {vs : List Int} (hv : v ∈ vs) (hle : ∀ w ∈ vs, w ≤ v) :
    greatestOr least vs = v := by
  have hm := greatestOr_mem least (List.ne_nil_of_mem hv)
  exact le_antisymm (hle _ hm) (le_greatestOr least hv)

theorem greatestOr_le_iff (least : Int) {b : Int} {vs : List Int} (h : vs ≠ []) :
    greatestOr least vs ≤ b ↔ ∀ v ∈ vs, v ≤ b :=
  ⟨fun hb _ hv => (le_greatestOr least hv).trans hb, fun hb => hb _ (greatestOr_mem least h)⟩

theorem le_greatestOr_iff (least : Int) {b : Int} {vs : List Int} (h : vs ≠ []) :
    b ≤ greatestOr least vs ↔ ∃ v ∈ vs, b ≤ v :=
  ⟨fun hb => ⟨_, greatestOr_mem least h, hb⟩, fun ⟨_, hv, hb⟩ => hb.trans (le_greatestOr least hv)⟩

theorem greatestOr_congr (least : Int) {vs ws : List Int} (h : ∀ v, v ∈ vs ↔ v ∈ ws) :
    greatestOr least vs = greatestOr least ws := by
  by_cases hvs : vs = []
  · have hws : ws = [] := List.eq_nil_iff_forall_not_mem.2 fun v hv => by
      have hmem := (h v).2 hv
      simp [hvs] at hmem
    rw [hvs, hws]
  · refine (greatestOr_eq ((h _).1 (greatestOr_mem least hvs)) fun w hw => ?_).symm
    exact le_greatestOr least ((h w).2 hw)

end Greatest

section
variable {P M : Type} {rules : Rules P M} {watch : Watch}

/-- The greatest of `alpha` and the values of moves for the side that makes them, each position
after a move having the value `value`. -/
def raise (rules : Rules P M) (value : P → Int) (p : P) (alpha : Int) (ms : List M) : Int :=
  ms.foldl (fun a m => max a (-value (rules.play p m))) alpha

theorem le_raise (value : P → Int) (p : P) (alpha : Int) (ms : List M) :
    alpha ≤ raise rules value p alpha ms := by
  induction ms generalizing alpha with
  | nil => exact le_refl _
  | cons m ms ih => exact (le_max_left _ _).trans (ih _)

theorem raise_eq_max (value : P → Int) (p : P) (alpha least : Int) {ms : List M} (h : ms ≠ []) :
    raise rules value p alpha ms =
      max alpha (greatestOr least (ms.map fun m => -value (rules.play p m))) := by
  induction ms generalizing alpha with
  | nil => contradiction
  | cons m ms ih =>
    cases ms with
    | nil => rfl
    | cons m' ms =>
      have ht := ih (max alpha (-value (rules.play p m))) (by simp)
      simp only [raise, List.foldl_cons, List.map_cons, greatestOr] at *
      rw [ht, max_assoc]

def Inspect.Sound (inspect : Inspect P) (value : P → Int) : Prop :=
  ∀ ⦃alpha beta p n v k⦄, alpha < beta → inspect alpha beta p n = (.found v, k) →
    Locates alpha beta v (value p)

/-- Trying moves raises `alpha` to the best of them, but not beyond `beta`. -/
theorem tryMoves_found {inspect : Inspect P} {value : P → Int} (hs : inspect.Sound value)
    {p : P} {alpha beta v : Int} {ms : List M} {n k : Nat} (hw : alpha < beta)
    (h : tryMoves rules inspect p beta ms alpha n = (.found v, k)) :
    v = min beta (raise rules value p alpha ms) := by
  induction ms generalizing alpha n with
  | nil =>
    simp only [tryMoves, Prod.mk.injEq, Outcome.found.injEq] at h
    rw [← h.1, raise, List.foldl_nil, min_eq_right hw.le]
  | cons m ms ih =>
    simp only [tryMoves] at h
    split at h
    · rename_i w k' hf
      have hl := hs (by omega) hf
      have hle := hl.le_alpha_iff
      have hge := hl.beta_le_iff
      have hin := hl.eq_of_inside
      split at h
      · rename_i hb
        simp only [Prod.mk.injEq, Outcome.found.injEq] at h
        have hr : max alpha (-value (rules.play p m)) ≤
            raise rules value p (max alpha (-value (rules.play p m))) ms := le_raise value p _ ms
        rw [raise, List.foldl_cons, ← raise]
        omega
      · rename_i hb
        -- Below `beta` the value is either found exactly or too low to count.
        have ha : (if alpha < -w then -w else alpha) = max alpha (-value (rules.play p m)) := by
          split <;> omega
        rw [ha] at h
        rw [raise, List.foldl_cons, ← raise]
        exact ih (by omega) h
    · rename_i hn
      exact absurd h (hn _ _)

theorem alphaBeta_locates (hd : rules.Decided) {depth ply : Nat} {p : P} {alpha beta v : Int}
    {n k : Nat} (hw : alpha < beta)
    (h : alphaBeta rules watch depth ply alpha beta p n = (.found v, k)) :
    Locates alpha beta v (negamax rules depth ply p) := by
  induction depth generalizing ply p alpha beta v n k with
  | zero =>
    unfold alphaBeta at h
    split at h
    · simp at h
    · simp at h
    · cases ht : rules.terminal? p ply <;> simp [ht] at h <;>
        simp [negamax, ht, h.1, Locates.refl]
  | succ depth ih =>
    unfold alphaBeta at h
    split at h
    · simp at h
    · simp at h
    · cases ht : rules.terminal? p ply with
      | some w =>
        simp only [ht, Prod.mk.injEq, Outcome.found.injEq] at h
        simp [negamax, ht, h.1, Locates.refl]
      | none =>
        obtain ⟨hmate, hdrawn⟩ := rules.terminal?_eq_none_iff.1 ht
        simp only [ht] at h
        have hs : Inspect.Sound (alphaBeta rules watch depth (ply + 1))
            (negamax rules depth (ply + 1)) := fun _ _ _ _ _ _ => ih
        have hv := tryMoves_found hs hw h
        rw [raise_eq_max _ _ _ (-mateValue - 1) (hd.moves_ne_nil hmate hdrawn)] at hv
        simp only [negamax, ht]
        rw [hv]
        exact Locates.clamp hw _

theorem alphaBeta_sound (hd : rules.Decided) (depth ply : Nat) :
    Inspect.Sound (alphaBeta rules watch depth ply) (negamax rules depth ply) :=
  fun _ _ _ _ _ _ => alphaBeta_locates hd

end

def Rules.inOrder {P M : Type} (rules : Rules P M) (order : P → List M) : Rules P M :=
  { rules with moves := order }

section
variable {P M : Type} {rules : Rules P M} {order : P → List M}

theorem Rules.Decided.inOrder (hd : rules.Decided) (h : ∀ p m, m ∈ order p ↔ m ∈ rules.moves p) :
    (rules.inOrder order).Decided := by
  intro p hp
  refine hd p (List.eq_nil_iff_forall_not_mem.2 fun m hm => ?_)
  have hm : m ∈ (rules.inOrder order).moves p := (h p m).2 hm
  rw [hp] at hm
  exact List.not_mem_nil hm

theorem negamax_inOrder (h : ∀ p m, m ∈ order p ↔ m ∈ rules.moves p) (depth ply : Nat) (p : P) :
    negamax (rules.inOrder order) depth ply p = negamax rules depth ply p := by
  induction depth generalizing ply p with
  | zero => rfl
  | succ depth ih =>
    have ht : (rules.inOrder order).terminal? p ply = rules.terminal? p ply := rfl
    simp only [negamax, ht, ih]
    cases rules.terminal? p ply with
    | some v => rfl
    | none =>
      refine greatestOr_congr _ fun v => ?_
      simp only [List.mem_map, Rules.inOrder, h]

end
end Zeitnot.Search
