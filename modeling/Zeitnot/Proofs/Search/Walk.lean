import Zeitnot.Proofs.Search.Checkpoints
import Zeitnot.Proofs.Stateful
import Zeitnot.Search.Walk
set_option autoImplicit false

namespace Zeitnot.Search
open Number Stateful

theorem Watch.stopsAt_of_every_zero {w : Watch} (h : w.every = 0) (nodes : Nat) :
    w.stopsAt nodes = .error .intModuloByZero := by
  simp [stopsAt, floorMod, h, bind, Except.bind]

inductive Follows {P α : Type} (board : P) :
    Except Fault (Option α) × Desk P → Outcome α × Nat → Prop
  | found (a : α) (nodes : Nat) : Follows board (.ok (some a), ⟨board, nodes⟩) (.found a, nodes)
  | cutOff (nodes : Nat) : Follows board (.ok none, ⟨board, nodes⟩) (.cutOff, nodes)
  | failed (fault : Fault) (left : P) (nodes : Nat) :
    Follows board (.error fault, ⟨left, nodes⟩) (.failed fault, nodes)

def Inspect.FollowedBy {P : Type} (inspect : Inspect P)
    (look : (alpha beta : Int) → Walk P (Option Int)) : Prop :=
  ∀ alpha beta board nodes,
    Follows board ((look alpha beta).run.run ⟨board, nodes⟩) (inspect alpha beta board nodes)

section
variable {P M : Type} {rules : Rules P M} {undo : P → P} {watch : Watch}

theorem run_trying {α : Type} (m : M) (look : Walk P α) (board : P) (nodes : Nat) :
    (trying rules undo m look).run.run ⟨board, nodes⟩ =
      match look.run.run ⟨rules.play board m, nodes⟩ with
      | (.ok a, d) => (.ok a, { d with board := undo d.board })
      | (.error fault, d) => (.error fault, d) := by
  unfold trying
  rw [run_modify_bind, run_bind]
  rcases look.run.run ⟨rules.play board m, nodes⟩ with ⟨_ | _, d⟩ <;> rfl

theorem trying_follows (hundo : ∀ p m, undo (rules.play p m) = p) {α : Type} {m : M}
    {look : Walk P (Option α)} {board : P} {nodes : Nat} {o : Outcome α × Nat}
    (h : Follows (rules.play board m) (look.run.run ⟨rules.play board m, nodes⟩) o) :
    Follows board ((trying rules undo m look).run.run ⟨board, nodes⟩) o := by
  rw [run_trying]
  generalize look.run.run ⟨rules.play board m, nodes⟩ = x at h ⊢
  cases h with
  | found a k =>
    simp only [hundo]
    exact .found a k
  | cutOff k =>
    simp only [hundo]
    exact .cutOff k
  | failed fault left k => exact .failed fault left k

theorem walkMoves_follows (hundo : ∀ p m, undo (rules.play p m) = p) {inspect : Inspect P}
    {look : (alpha beta : Int) → Walk P (Option Int)} (hi : inspect.FollowedBy look) (board : P)
    (beta alpha : Int) (ms : List M) (nodes : Nat) :
    Follows board ((walkMoves rules undo look beta ms alpha).run.run ⟨board, nodes⟩)
      (tryMoves rules inspect board beta ms alpha nodes) := by
  induction ms generalizing alpha nodes with
  | nil => exact .found alpha nodes
  | cons m ms ih =>
    have hm := trying_follows hundo (hi (-beta) (-alpha) (rules.play board m) nodes)
    rw [walkMoves, tryMoves, run_bind]
    generalize (trying rules undo m (look (-beta) (-alpha))).run.run ⟨board, nodes⟩ = x at hm ⊢
    generalize inspect (-beta) (-alpha) (rules.play board m) nodes = o at hm ⊢
    cases hm with
    | found v k =>
      -- The move is taken back, so that the next one is tried from the same board.
      simp only
      split
      · exact .found beta k
      · exact ih _ k
    | cutOff k => exact .cutOff k
    | failed fault left k => exact .failed fault left k

theorem walk_follows (hundo : ∀ p m, undo (rules.play p m) = p) (depth ply : Nat) :
    (alphaBeta rules watch depth ply).FollowedBy (walk rules undo watch depth ply) := by
  induction depth generalizing ply with
  | zero =>
    intro alpha beta board nodes
    unfold walk alphaBeta
    rw [run_modify_bind, run_get_bind, run_bind, run_liftExcept]
    rcases watch.stopsAt (nodes + 1) with fault | _ | _
    · exact .failed fault board _
    · simp only [Bool.false_eq_true, if_false]
      cases rules.terminal? board ply with
      | some v => exact .found v _
      | none => exact .found _ _
    · exact .cutOff _
  | succ depth ih =>
    intro alpha beta board nodes
    unfold walk alphaBeta
    rw [run_modify_bind, run_get_bind, run_bind, run_liftExcept]
    rcases watch.stopsAt (nodes + 1) with fault | _ | _
    · exact .failed fault board _
    · simp only [Bool.false_eq_true, if_false]
      cases rules.terminal? board ply with
      | some v => exact .found v _
      | none => exact walkMoves_follows hundo (ih (ply + 1)) board beta alpha _ _
    · exact .cutOff _

theorem walkRootMoves_follows (hundo : ∀ p m, undo (rules.play p m) = p) {inspect : Inspect P}
    {look : (alpha beta : Int) → Walk P (Option Int)} (hi : inspect.FollowedBy look) (root : P)
    (best : Option M) (alpha : Int) (ms : List M) (nodes : Nat) :
    Follows root ((walkRootMoves rules undo look best alpha ms).run.run ⟨root, nodes⟩)
      (tryRootMoves rules inspect root best alpha ms nodes) := by
  induction ms generalizing best alpha nodes with
  | nil => exact .found (alpha, best) nodes
  | cons m ms ih =>
    have hm := trying_follows hundo (hi (-(mateValue + 1)) (-alpha) (rules.play root m) nodes)
    rw [walkRootMoves, tryRootMoves, run_bind]
    generalize (trying rules undo m (look (-(mateValue + 1)) (-alpha))).run.run ⟨root, nodes⟩ = x
      at hm ⊢
    generalize inspect (-(mateValue + 1)) (-alpha) (rules.play root m) nodes = o at hm ⊢
    cases hm with
    | found v k =>
      simp only
      split
      · exact ih _ _ k
      · exact ih _ _ k
    | cutOff k => exact .cutOff k
    | failed fault left k => exact .failed fault left k

theorem walkRoot_follows (hundo : ∀ p m, undo (rules.play p m) = p) (root : P) (depth : Nat)
    (ms : List M) (nodes : Nat) :
    Follows root ((walkRoot rules undo watch depth ms).run.run ⟨root, nodes⟩)
      (searchRoot rules watch root depth ms nodes) :=
  walkRootMoves_follows hundo (walk_follows hundo (depth - 1) 1) root none _ ms nodes

variable [BEq M] {goal : Goal}

theorem deepenOn_follows (hundo : ∀ p m, undo (rules.play p m) = p) (root : P) (remaining : Nat)
    (r : Progress M) :
    (deepenOn rules undo watch goal remaining r root).1 =
        deepen rules watch goal root remaining r ∧
      ((deepen rules watch goal root remaining r).fault = none →
        (deepenOn rules undo watch goal remaining r root).2 = root) := by
  induction remaining generalizing r with
  | zero => exact ⟨rfl, fun _ => rfl⟩
  | succ remaining ih =>
    have hroot : Follows root
        ((walkRoot rules undo watch (r.depth + 1) r.order).run.run ⟨root, r.nodes⟩)
        (searchRoot rules watch root (r.depth + 1) r.order r.nodes) :=
      walkRoot_follows hundo root (r.depth + 1) r.order r.nodes
    rw [deepenOn, deepen]
    generalize (walkRoot rules undo watch (r.depth + 1) r.order).run.run ⟨root, r.nodes⟩ = x
      at hroot ⊢
    generalize searchRoot rules watch root (r.depth + 1) r.order r.nodes = o at hroot ⊢
    cases hroot with
    | found found k =>
      obtain ⟨v, m⟩ := found
      simp only
      split
      · exact ⟨rfl, fun _ => rfl⟩
      · split
        · exact ⟨rfl, fun _ => rfl⟩
        · exact ih _
    | cutOff k => exact ⟨rfl, fun _ => rfl⟩
    | failed fault left k => exact ⟨rfl, fun h => absurd h (by simp)⟩

theorem searchOn_progress (hundo : ∀ p m, undo (rules.play p m) = p) (root : P) :
    (searchOn rules undo watch goal root).1 = search rules watch goal root := by
  unfold searchOn search
  cases rules.moves root with
  | nil => rfl
  | cons m ms => exact congrArg some (deepenOn_follows hundo root _ _).1

/-- A watch that can look at every node lets a search take back every move. -/
theorem searchOn_restores (hundo : ∀ p m, undo (rules.play p m) = p) (hw : watch.every ≠ 0)
    (root : P) : (searchOn rules undo watch goal root).2 = root := by
  unfold searchOn
  cases hms : rules.moves root with
  | nil => rfl
  | cons m ms =>
    refine (deepenOn_follows hundo root goal.depthLimit.toNat (.start m (m :: ms))).2 ?_
    exact search_fault hw (show search rules watch goal root = some _ by rw [search, hms])

theorem searchOn_leaves (hw : watch.every = 0) (root : P) :
    (searchOn rules undo watch goal root).2 = root ∨
      ∃ m ∈ rules.moves root, (searchOn rules undo watch goal root).2 = rules.play root m := by
  unfold searchOn
  cases rules.moves root with
  | nil => exact .inl rfl
  | cons m ms =>
    cases goal.depthLimit.toNat with
    | zero => exact .inl rfl
    | succ remaining =>
      have hlook (alpha beta : Int) : (walk rules undo watch 0 1 alpha beta).run.run
          ⟨rules.play root m, 0⟩ = (.error .intModuloByZero, ⟨rules.play root m, 1⟩) := by
        unfold walk
        rw [run_modify_bind, run_get_bind, run_bind, run_liftExcept,
          Watch.stopsAt_of_every_zero hw]
      have hwalk : (walkRoot rules undo watch 1 (m :: ms)).run.run ⟨root, 0⟩ =
          (.error .intModuloByZero, ⟨rules.play root m, 1⟩) := by
        rw [walkRoot, walkRootMoves, run_bind, run_trying, hlook]
      refine .inr ⟨m, by simp, ?_⟩
      simp only [deepenOn, Progress.start, hwalk]

end
end Zeitnot.Search
