import Mathlib.Order.Bounds.Basic
import Zeitnot.Proofs.Search.Root
/-!
Forced mates, and how the value of a position tells of them. A position is worth a mate exactly if
the mate can be forced within the depth of the search, and its value counts the plies to it; every
other value lies between the mates, if no material outweighs one.
-/
set_option autoImplicit false

namespace Zeitnot.Search

section
variable {P M : Type} (rules : Rules P M)

mutual

/-- Some move forces checkmate within so many plies, the move counted: it mates, or the game goes
on and every reply loses within the rest. -/
def Rules.ForcesMate : (plies : Nat) → P → Prop
  | 0, _ => False
  | plies + 1, p => ∃ m ∈ rules.moves p, rules.isMate (rules.play p m) = true ∨
      rules.isDrawn (rules.play p m) = false ∧ Rules.LosesToMate plies (rules.play p m)

/-- Every move loses to a checkmate within so many plies, the move counted: the game goes on after
it, and the other side forces checkmate within the rest. -/
def Rules.LosesToMate : (plies : Nat) → P → Prop
  | 0, _ => False
  | plies + 1, p => ∀ m ∈ rules.moves p, rules.isMate (rules.play p m) = false ∧
      rules.isDrawn (rules.play p m) = false ∧ Rules.ForcesMate plies (rules.play p m)

end

mutual

def Rules.decideForcesMate : (plies : Nat) → (p : P) → Decidable (rules.ForcesMate plies p)
  | 0, _ => .isFalse fun h => h
  | plies + 1, p =>
    have (q : P) : Decidable (rules.LosesToMate plies q) := Rules.decideLosesToMate plies q
    inferInstanceAs (Decidable (∃ m ∈ rules.moves p, rules.isMate (rules.play p m) = true ∨
      rules.isDrawn (rules.play p m) = false ∧ rules.LosesToMate plies (rules.play p m)))

def Rules.decideLosesToMate : (plies : Nat) → (p : P) → Decidable (rules.LosesToMate plies p)
  | 0, _ => .isFalse fun h => h
  | plies + 1, p =>
    have (q : P) : Decidable (rules.ForcesMate plies q) := Rules.decideForcesMate plies q
    inferInstanceAs (Decidable (∀ m ∈ rules.moves p, rules.isMate (rules.play p m) = false ∧
      rules.isDrawn (rules.play p m) = false ∧ rules.ForcesMate plies (rules.play p m)))

end

instance (plies : Nat) (p : P) : Decidable (rules.ForcesMate plies p) :=
  rules.decideForcesMate plies p

instance (plies : Nat) (p : P) : Decidable (rules.LosesToMate plies p) :=
  rules.decideLosesToMate plies p

def Rules.Won (plies : Nat) (p : P) : Prop :=
  rules.isMate p = false ∧ rules.isDrawn p = false ∧ rules.ForcesMate plies p

def Rules.Lost (plies : Nat) (p : P) : Prop :=
  rules.isMate p = true ∨ rules.isDrawn p = false ∧ rules.LosesToMate plies p

/-- The plies that a side lasts after a move of the root, the move counted: the other side needs
all of them for its mate. -/
def Rules.LastsFor (root : P) (m : M) (plies : Nat) : Prop :=
  IsLeast {k | rules.Won (k - 1) (rules.play root m)} plies

/-- A value that tells exactly of the mates that a root holds within a depth: in how many plies the
side to move gives mate, or how many plies it lasts at the longest; and that there is neither. -/
structure Rules.MateExact (horizon : Int) (root : P) (depth : Nat) (v : Int) : Prop where
  wins : ∀ plies : Nat, v = mateValue - plies ∧ plies ≤ depth ↔
    rules.ForcesMate depth root ∧ IsLeast {k | rules.ForcesMate k root} plies
  loses : ∀ plies : Nat, v = -mateValue + plies ∧ plies ≤ depth ↔
    rules.LosesToMate depth root ∧
      IsGreatest {k | ∃ m ∈ rules.moves root, rules.LastsFor root m k} plies
  neither : ¬ rules.ForcesMate depth root → ¬ rules.LosesToMate depth root →
    |v| < mateValue - horizon

/-- No material is worth as much as a mate within a horizon. -/
def Rules.MatesOutweigh (horizon : Int) : Prop :=
  ∀ p, |rules.evaluate p| < mateValue - horizon

end

section
variable {P M : Type} {rules : Rules P M} {p root : P} {plies depth ply : Nat}

theorem Rules.forcesMate_succ :
    rules.ForcesMate (plies + 1) p ↔ ∃ m ∈ rules.moves p, rules.Lost plies (rules.play p m) :=
  Iff.rfl

theorem Rules.losesToMate_succ :
    rules.LosesToMate (plies + 1) p ↔ ∀ m ∈ rules.moves p, rules.Won plies (rules.play p m) :=
  Iff.rfl

@[simp] theorem Rules.not_forcesMate_zero : ¬ rules.ForcesMate 0 p := fun h => h

@[simp] theorem Rules.not_losesToMate_zero : ¬ rules.LosesToMate 0 p := fun h => h

theorem Rules.mate_succ (plies : Nat) :
    (∀ p, rules.ForcesMate plies p → rules.ForcesMate (plies + 1) p) ∧
      ∀ p, rules.LosesToMate plies p → rules.LosesToMate (plies + 1) p := by
  induction plies with
  | zero => exact ⟨fun _ h => h.elim, fun _ h => h.elim⟩
  | succ plies ih =>
    constructor
    · rintro p ⟨m, hm, h⟩
      exact ⟨m, hm, h.imp_right fun h => ⟨h.1, ih.2 _ h.2⟩⟩
    · intro p h m hm
      obtain ⟨hmate, hdrawn, hforces⟩ := h m hm
      exact ⟨hmate, hdrawn, ih.1 _ hforces⟩

theorem Rules.Won.mono {k : Nat} (h : rules.Won plies p) (hk : plies ≤ k) : rules.Won k p := by
  induction hk with
  | refl => exact h
  | step _ ih => exact ⟨ih.1, ih.2.1, (Rules.mate_succ _).1 p ih.2.2⟩

theorem Rules.losesToMate_iff (hne : rules.moves root ≠ []) :
    rules.LosesToMate plies root ↔
      ∀ m ∈ rules.moves root, rules.Won (plies - 1) (rules.play root m) := by
  cases plies with
  | zero =>
    obtain ⟨m, hm⟩ := List.exists_mem_of_ne_nil _ hne
    exact iff_of_false (fun h => h) fun h => (h m hm).2.2
  | succ plies => exact Iff.rfl

/-- Among some things that all come true in time, and stay true: the least time at which all of them
are true is the greatest of their least times. -/
theorem isLeast_forall_iff {α : Type} {xs : List α} {A : α → Nat → Prop} {bound n : Nat}
    (hne : xs ≠ []) (hmono : ∀ x j k, j ≤ k → A x j → A x k) (hb : ∀ x ∈ xs, A x bound) :
    IsLeast {k | ∀ x ∈ xs, A x k} n ↔ IsGreatest {k | ∃ x ∈ xs, IsLeast {j | A x j} k} n := by
  constructor
  · rintro ⟨hn, hleast⟩
    refine ⟨?_, fun k ⟨x, hx, hk⟩ => hk.2 (hn x hx)⟩
    -- Some thing is not yet true one step before, unless there is no step before.
    obtain ⟨x, hx, hlate⟩ : ∃ x ∈ xs, ∀ j, A x j → n ≤ j := by
      by_contra! hearly
      cases n with
      | zero =>
        obtain ⟨x, hx⟩ := List.exists_mem_of_ne_nil _ hne
        obtain ⟨j, -, hj⟩ := hearly x hx
        exact absurd hj (Nat.not_lt_zero j)
      | succ n =>
        have hall : ∀ x ∈ xs, A x n := fun x hx => by
          obtain ⟨j, hj, hlt⟩ := hearly x hx
          exact hmono x j n (Nat.le_of_lt_succ hlt) hj
        exact absurd (hleast hall) (Nat.not_succ_le_self n)
    exact ⟨x, hx, hn x hx, hlate⟩
  · rintro ⟨⟨x, hx, hleast⟩, hgreatest⟩
    refine ⟨fun y hy => ?_, fun k hk => hleast.2 (hk x hx)⟩
    classical
    have hex : ∃ j, A y j := ⟨bound, hb y hy⟩
    have hfirst : IsLeast {j | A y j} (Nat.find hex) :=
      ⟨Nat.find_spec hex, fun j hj => Nat.find_min' hex hj⟩
    exact hmono y _ n (hgreatest ⟨y, hy, hfirst⟩) hfirst.1

theorem Rules.isLeast_losesToMate_iff (hne : rules.moves root ≠ [])
    (h : rules.LosesToMate depth root) :
    IsLeast {k | rules.LosesToMate k root} plies ↔
      IsGreatest {k | ∃ m ∈ rules.moves root, rules.LastsFor root m k} plies := by
  simp only [Rules.losesToMate_iff hne] at h ⊢
  exact isLeast_forall_iff hne (fun m j k hjk hw => hw.mono (Nat.sub_le_sub_right hjk 1)) h

end

/-- A value that passes every mark of a descending scale as far as a property holds reads off the
least number that has the property. -/
theorem eq_sub_iff_isLeast {A : Nat → Prop} {c v : Int} {d n : Nat} (h0 : ¬ A 0)
    (h : ∀ k ≤ d, c - k ≤ v ↔ A k) : v = c - n ∧ n ≤ d ↔ A d ∧ IsLeast {k | A k} n := by
  constructor
  · rintro ⟨rfl, hn⟩
    refine ⟨(h d le_rfl).1 (by omega), (h n hn).1 le_rfl, fun k hk => ?_⟩
    by_contra hlt
    have hmark := (h k (by omega)).2 hk
    omega
  · rintro ⟨hd, hn, hleast⟩
    have hnd : n ≤ d := hleast hd
    have hmark := (h n hnd).2 hn
    cases n with
    | zero => exact absurd hn h0
    | succ n =>
      have hnot : ¬ c - (n : Int) ≤ v := fun hv =>
        absurd (hleast ((h n (by omega)).1 hv)) (Nat.not_succ_le_self n)
      exact ⟨by omega, hnd⟩

/-- What a value tells of mates, if it has been searched to a depth at a ply: it is that of a mate
within `k` plies exactly if the side to move `wins` or `loses` within them, and otherwise below
every mate within the horizon. -/
structure MateScore (horizon : Int) (depth ply : Nat) (wins loses : Nat → Prop) (v : Int) :
    Prop where
  matedAt_le : matedAt ply ≤ v
  lt_mate : v < -matedAt ply
  wins_iff : ∀ {k}, k ≤ depth → (-matedAt (ply + k) ≤ v ↔ wins k)
  loses_iff : ∀ {k}, k ≤ depth → (v ≤ matedAt (ply + k) ↔ loses k)
  mate_or_material : -matedAt (ply + depth) ≤ v ∨ v ≤ matedAt (ply + depth) ∨
    |v| < mateValue - horizon

namespace MateScore
variable {horizon : Int} {depth depth' ply : Nat} {wins loses : Nat → Prop} {v v' b : Int}

/-- A search to a greater depth is on the same side of every mate that a search to the smaller
depth can see. -/
theorem le_iff_of_le (h : MateScore horizon depth ply wins loses v)
    (h' : MateScore horizon depth' ply wins loses v') (hd : depth ≤ depth')
    (hb : b ≤ matedAt (ply + depth)) : v ≤ b ↔ v' ≤ b := by
  by_cases hlow : b < matedAt ply
  · have hv := h.matedAt_le
    have hv' := h'.matedAt_le
    exact iff_of_false (by omega) (by omega)
  · obtain ⟨k, hk⟩ := Int.eq_ofNat_of_zero_le (by omega : 0 ≤ b - matedAt ply)
    obtain rfl : b = matedAt (ply + k) := by unfold matedAt at *; omega
    have hkd : k ≤ depth := by unfold matedAt at *; omega
    rw [h.loses_iff hkd, h'.loses_iff (hkd.trans hd)]

theorem le_iff_of_ge (h : MateScore horizon depth ply wins loses v)
    (h' : MateScore horizon depth' ply wins loses v') (hd : depth ≤ depth')
    (hb : -matedAt (ply + depth) ≤ b) : b ≤ v ↔ b ≤ v' := by
  by_cases hhigh : -matedAt ply < b
  · have hv := h.lt_mate
    have hv' := h'.lt_mate
    exact iff_of_false (by omega) (by omega)
  · obtain ⟨k, hk⟩ := Int.eq_ofNat_of_zero_le (by omega : 0 ≤ -b - matedAt ply)
    obtain rfl : b = -matedAt (ply + k) := by unfold matedAt at *; omega
    have hkd : k ≤ depth := by unfold matedAt at *; omega
    rw [h.wins_iff hkd, h'.wins_iff (hkd.trans hd)]

theorem stable (h : MateScore horizon depth ply wins loses v)
    (h' : MateScore horizon depth' ply wins loses v') (hd : depth ≤ depth')
    (hb : b ≤ matedAt (ply + depth) ∨ -matedAt (ply + depth) ≤ b) :
    (v ≤ b ↔ v' ≤ b) ∧ (b ≤ v ↔ b ≤ v') := by
  rcases hb with hb | hb
  · have hbelow := h.le_iff_of_le h' hd (by omega : b - 1 ≤ matedAt (ply + depth))
    exact ⟨h.le_iff_of_le h' hd hb, by omega⟩
  · have habove := h.le_iff_of_ge h' hd (by omega : -matedAt (ply + depth) ≤ b + 1)
    exact ⟨by omega, h.le_iff_of_ge h' hd hb⟩

end MateScore

section
variable {P M : Type} {rules : Rules P M} {horizon : Int} {depth ply : Nat} {p root : P}

theorem greatest_neg_le_iff {ms : List M} (hms : ms ≠ []) (least b : Int) (f : M → Int) :
    greatestOr least (ms.map fun m => -f m) ≤ b ↔ ∀ m ∈ ms, -b ≤ f m := by
  rw [greatestOr_le_iff least (by simpa using hms)]
  simp only [List.forall_mem_map, neg_le]

theorem le_greatest_neg_iff {ms : List M} (hms : ms ≠ []) (least b : Int) (f : M → Int) :
    b ≤ greatestOr least (ms.map fun m => -f m) ↔ ∃ m ∈ ms, f m ≤ -b := by
  rw [le_greatestOr_iff least (by simpa using hms)]
  simp only [List.mem_map, exists_exists_and_eq_and, le_neg]

/-- If the values after all moves tell of mates one ply later, the best of them does too. -/
theorem mateScore_greatest {f : M → Int} (hne : rules.moves p ≠ [])
    (hf : ∀ m ∈ rules.moves p, MateScore horizon depth (ply + 1)
      (rules.Won · (rules.play p m)) (rules.Lost · (rules.play p m)) (f m)) :
    MateScore horizon (depth + 1) ply (rules.ForcesMate · p) (rules.LosesToMate · p)
      (greatestOr (-mateValue - 1) ((rules.moves p).map fun m => -f m)) := by
  have hle := fun b => greatest_neg_le_iff hne (-mateValue - 1) b f
  have hge := fun b => le_greatest_neg_iff hne (-mateValue - 1) b f
  generalize greatestOr (-mateValue - 1) ((rules.moves p).map fun m => -f m) = v at hle hge ⊢
  obtain ⟨best, hbest, hv⟩ : ∃ m ∈ rules.moves p, f m = -v := by
    obtain ⟨m, hm, hv⟩ := (hge v).1 le_rfl
    exact ⟨m, hm, le_antisymm hv ((hle v).1 le_rfl m hm)⟩
  have hstep : matedAt (ply + 1) = matedAt ply + 1 := by unfold matedAt; omega
  have hlow : matedAt ply < v := by
    have hlt := (hf best hbest).lt_mate
    omega
  have hhigh : v < -matedAt ply := by
    have hmated := (hf best hbest).matedAt_le
    omega
  -- A mate within some plies is one within a ply less after a move; within none there is none.
  refine ⟨hlow.le, hhigh, fun {k} hk => ?_, fun {k} hk => ?_, ?_⟩
  · cases k with
    | zero => exact iff_of_false (by simpa using hhigh) Rules.not_forcesMate_zero
    | succ k =>
      rw [hge, Rules.forcesMate_succ]
      refine exists_congr fun m => and_congr_right fun hm => ?_
      rw [neg_neg, ← (hf m hm).loses_iff (Nat.le_of_succ_le_succ hk), Nat.add_right_comm,
        Nat.add_assoc]
  · cases k with
    | zero => exact iff_of_false (by simpa using hlow) Rules.not_losesToMate_zero
    | succ k =>
      rw [hle, Rules.losesToMate_succ]
      refine forall₂_congr fun m hm => ?_
      rw [← (hf m hm).wins_iff (Nat.le_of_succ_le_succ hk), Nat.add_right_comm, Nat.add_assoc]
  · have hcases := (hf best hbest).mate_or_material
    rw [hv, abs_neg, Nat.add_right_comm, Nat.add_assoc] at hcases
    omega

theorem mateScore_of_material {wins loses : Nat → Prop} {v : Int} (hv : |v| < mateValue - horizon)
    (h : ((ply + depth : Nat) : Int) ≤ horizon) (hw : ∀ k ≤ depth, ¬ wins k)
    (hl : ∀ k ≤ depth, ¬ loses k) : MateScore horizon depth ply wins loses v := by
  have hlt := abs_lt.1 hv
  exact {
    matedAt_le := by unfold matedAt; omega
    lt_mate := by unfold matedAt; omega
    wins_iff := fun {k} hk => iff_of_false (by unfold matedAt; omega) (hw k hk)
    loses_iff := fun {k} hk => iff_of_false (by unfold matedAt; omega) (hl k hk)
    mate_or_material := .inr (.inr hv) }

theorem mateScore_matedAt (hp : rules.isMate p = true) (hh : horizon < mateValue)
    (h : ((ply + depth : Nat) : Int) ≤ horizon) :
    MateScore horizon depth ply (rules.Won · p) (rules.Lost · p) (matedAt ply) where
  matedAt_le := le_rfl
  lt_mate := by unfold matedAt; omega
  wins_iff _ := iff_of_false (by unfold matedAt; omega) (by simp [Rules.Won, hp])
  loses_iff _ := iff_of_true (by unfold matedAt; omega) (.inl hp)
  mate_or_material := .inr (.inl (by unfold matedAt; omega))

theorem mateScore_of_terminal {v : Int} (hh : horizon < mateValue)
    (h : ((ply + depth : Nat) : Int) ≤ horizon) (ht : rules.terminal? p ply = some v) :
    MateScore horizon depth ply (rules.Won · p) (rules.Lost · p) v := by
  unfold Rules.terminal? at ht
  split at ht <;> rename_i hm
  · cases ht
    exact mateScore_matedAt hm hh h
  · split at ht <;> rename_i hdr
    · cases ht
      refine mateScore_of_material (by simpa using hh) h (fun k _ hw => ?_) fun k _ hl => ?_
      · exact Bool.false_ne_true (hw.2.1.symm.trans hdr)
      · exact hl.elim hm fun hl => Bool.false_ne_true (hl.1.symm.trans hdr)
    · cases ht

theorem mateScore_negamax (hd : rules.Decided) (hb : rules.MatesOutweigh horizon) (depth : Nat)
    {ply : Nat} {p : P} (h : ((ply + depth : Nat) : Int) ≤ horizon) :
    MateScore horizon depth ply (rules.Won · p) (rules.Lost · p) (negamax rules depth ply p) := by
  have hh : horizon < mateValue := by
    have hpos := (abs_nonneg (rules.evaluate p)).trans_lt (hb p)
    omega
  induction depth generalizing ply p with
  | zero =>
    cases ht : rules.terminal? p ply with
    | some v => simpa [negamax, ht] using mateScore_of_terminal hh h ht
    | none =>
      obtain ⟨hm, hdr⟩ := rules.terminal?_eq_none_iff.1 ht
      have hmaterial : MateScore horizon 0 ply (rules.Won · p) (rules.Lost · p)
          (rules.evaluate p) := by
        refine mateScore_of_material (hb p) h (fun k hk hw => ?_) fun k hk hl => ?_
        · obtain rfl : k = 0 := Nat.le_zero.1 hk
          exact hw.2.2
        · obtain rfl : k = 0 := Nat.le_zero.1 hk
          exact hl.elim (by simp [hm]) fun hl => hl.2
      simpa [negamax, ht] using hmaterial
  | succ depth ih =>
    cases ht : rules.terminal? p ply with
    | some v => simpa [negamax, ht] using mateScore_of_terminal hh h ht
    | none =>
      obtain ⟨hm, hdr⟩ := rules.terminal?_eq_none_iff.1 ht
      have hplayed : ∀ m ∈ rules.moves p, MateScore horizon depth (ply + 1)
          (rules.Won · (rules.play p m)) (rules.Lost · (rules.play p m))
          (negamax rules depth (ply + 1) (rules.play p m)) := fun m _ => ih (by omega)
      have hbest := mateScore_greatest (hd.moves_ne_nil hm hdr) hplayed
      simp only [negamax, ht]
      exact {
        matedAt_le := hbest.matedAt_le
        lt_mate := hbest.lt_mate
        wins_iff := fun hk => (hbest.wins_iff hk).trans (by simp [Rules.Won, hm, hdr])
        loses_iff := fun hk => (hbest.loses_iff hk).trans (by simp [Rules.Lost, hm, hdr])
        mate_or_material := hbest.mate_or_material }

/-- The value of the best move of a root tells of mates too, whether or not the game would be over
there. -/
theorem IsBest.mateScore (hd : rules.Decided) (hb : rules.MatesOutweigh horizon) (hpos : 0 < depth)
    (h : (depth : Int) ≤ horizon) {m : M} {v : Int}
    (hbest : IsBest (moveValue rules root depth) (rules.moves root) m v) :
    MateScore horizon depth 0 (rules.ForcesMate · root) (rules.LosesToMate · root) v := by
  obtain ⟨depth, rfl⟩ := Nat.exists_eq_succ_of_ne_zero hpos.ne'
  have hroot : greatestOr (-mateValue - 1)
      ((rules.moves root).map fun m => -negamax rules depth 1 (rules.play root m)) = v :=
    hbest.value_eq
  rw [← hroot]
  exact mateScore_greatest (List.ne_nil_of_mem hbest.mem) fun m _ =>
    mateScore_negamax hd hb depth (by omega)

theorem IsBest.mateExact (hd : rules.Decided) (hb : rules.MatesOutweigh horizon) (hpos : 0 < depth)
    (h : (depth : Int) ≤ horizon) {m : M} {v : Int}
    (hbest : IsBest (moveValue rules root depth) (rules.moves root) m v) :
    rules.MateExact horizon root depth v := by
  have hne : rules.moves root ≠ [] := List.ne_nil_of_mem hbest.mem
  have hscore := hbest.mateScore hd hb hpos h
  have hwins : ∀ k ≤ depth, mateValue - k ≤ v ↔ rules.ForcesMate k root := fun k hk => by
    rw [← hscore.wins_iff hk, Nat.zero_add, matedAt, neg_add, neg_neg, sub_eq_add_neg]
  have hloses : ∀ k ≤ depth, mateValue - k ≤ -v ↔ rules.LosesToMate k root := fun k hk => by
    rw [← hscore.loses_iff hk, Nat.zero_add, matedAt, le_neg, neg_sub, sub_eq_neg_add]
  refine ⟨fun plies => ?_, fun plies => ?_, fun hnowin hnoloss => ?_⟩
  · exact eq_sub_iff_isLeast (A := (rules.ForcesMate · root)) Rules.not_forcesMate_zero hwins
  · have hleast : -v = mateValue - plies ∧ plies ≤ depth ↔
        rules.LosesToMate depth root ∧ IsLeast {k | rules.LosesToMate k root} plies :=
      eq_sub_iff_isLeast (A := (rules.LosesToMate · root)) Rules.not_losesToMate_zero hloses
    have hsign : v = -mateValue + plies ↔ -v = mateValue - plies := by omega
    rw [hsign, hleast]
    exact and_congr_right (Rules.isLeast_losesToMate_iff hne)
  · have hlow := mt (hwins depth le_rfl).1 hnowin
    have hhigh := mt (hloses depth le_rfl).1 hnoloss
    rcases hscore.mate_or_material with hv | hv | hv
    · exact absurd ((hscore.wins_iff le_rfl).1 hv) hnowin
    · exact absurd ((hscore.loses_iff le_rfl).1 hv) hnoloss
    · exact hv

/-- The value of a move of the root, to two depths of which the greater lies within the horizon: it
is on the same side of every mate that the smaller depth can see. -/
theorem moveValue_stable (hd : rules.Decided) (hb : rules.MatesOutweigh horizon) (hpos : 0 < depth)
    {depth' : Nat} (hle : depth ≤ depth') (h : (depth' : Int) ≤ horizon) {b : Int}
    (hmate : -matedAt depth ≤ b ∨ b ≤ matedAt depth) (m : M) :
    (moveValue rules root depth m ≤ b ↔ moveValue rules root depth' m ≤ b) ∧
      (b ≤ moveValue rules root depth m ↔ b ≤ moveValue rules root depth' m) := by
  obtain ⟨depth, rfl⟩ := Nat.exists_eq_succ_of_ne_zero hpos.ne'
  obtain ⟨depth', rfl⟩ := Nat.exists_eq_succ_of_ne_zero (by omega : depth' ≠ 0)
  have hscore : MateScore horizon depth 1 _ _ (negamax rules depth 1 (rules.play root m)) :=
    mateScore_negamax hd hb depth (by omega)
  have hscore' : MateScore horizon depth' 1 _ _ (negamax rules depth' 1 (rules.play root m)) :=
    mateScore_negamax hd hb depth' (by omega)
  have hmark : -b ≤ matedAt (1 + depth) ∨ -matedAt (1 + depth) ≤ -b := by
    rw [Nat.add_comm 1 depth, neg_le_neg_iff]
    exact hmate.imp_left neg_le.1
  obtain ⟨hle, hge⟩ := hscore.stable hscore' (by omega) hmark
  exact ⟨neg_le.trans (hge.trans neg_le), le_neg.trans (hle.trans le_neg)⟩

/-- The best move at a depth at which a mate is found is the best move at every greater depth, with
the same value. -/
theorem IsBest.stable (hd : rules.Decided) (hb : rules.MatesOutweigh horizon) (hpos : 0 < depth)
    {depth' : Nat} (hle : depth ≤ depth') (h : (depth' : Int) ≤ horizon) {ms : List M} {m : M}
    {v : Int} (hmate : -matedAt depth ≤ v ∨ v ≤ matedAt depth)
    (hbest : IsBest (moveValue rules root depth) ms m v) :
    IsBest (moveValue rules root depth') ms m v := by
  have hsame : ∀ m, (moveValue rules root depth m ≤ v ↔ moveValue rules root depth' m ≤ v) ∧
      (v ≤ moveValue rules root depth m ↔ v ≤ moveValue rules root depth' m) :=
    moveValue_stable hd hb hpos hle h hmate
  refine ⟨hbest.mem, le_antisymm ?_ ?_, fun m' hm => ?_⟩
  · exact (hsame m).1.1 hbest.score_eq.le
  · exact (hsame m).2.1 hbest.score_eq.ge
  · exact (hsame m').1.1 (hbest.score_le m' hm)

end
end Zeitnot.Search
