import Zeitnot.Proofs.Engine.Thinking
import Zeitnot.Proofs.Session.Likeness
set_option autoImplicit false

namespace Zeitnot
open Chess Number Search Stateful

variable {S : Type} {p q : List String}

namespace Session

theorem Alike.elapsed {s t : Session S} (h : s.Alike p q t) : s.elapsed = t.elapsed := by
  funext now nodes
  rw [Session.elapsed, Session.elapsed, h.allocator]

theorem Alike.elapsedTime {s t : Session S} (h : s.Alike p q t) :
    s.elapsedTime = t.elapsedTime := by
  funext now
  rw [Session.elapsedTime, Session.elapsedTime, h.allocator]

theorem Alike.hasClock {s t : Session S} (h : s.Alike p q t) : s.hasClock = t.hasClock := by
  rw [Session.hasClock, Session.hasClock, h.limits]

theorem Alike.shouldStop {s t : Session S} (h : s.Alike p q t) :
    s.shouldStop = t.shouldStop := by
  funext now nodes
  rw [Session.shouldStop, Session.shouldStop, h.hasClock, h.allocator, h.elapsed]

variable [Scalar S]

theorem respects_start (limits : Limits) (root : Root) (us? : Option Side) :
    Respects (Alike p q) (start (S := S) limits root us?) := by
  intro s t h
  cases hu : us? <|> root.turn? with
  | none =>
    rw [run_start_of_no_side hu, run_start_of_no_side hu]
    exact ⟨rfl, h⟩
  | some us =>
    obtain ⟨result, l, s', t', hs, ht, h'⟩ := h.armed us root.plyCount s.adjust limits
    rw [run_start hu, run_start hu, ← h.adjust, hs, ht]
    cases result with
    | ok adjust => exact ⟨rfl, { h' with adjust := rfl, limits := rfl }⟩
    | error fault => exact ⟨rfl, { h' with limits := rfl }⟩

omit [Scalar S] in
theorem respects_setOption (name : String) (raw : Config.Value) :
    Respects (Alike p q) (setOption (S := S) name raw) := by
  intro s t h
  rw [run_setOption, run_setOption, ← h.options]
  cases s.options.set name raw with
  | ok options => exact ⟨rfl, { h with options := rfl }⟩
  | error fault => exact ⟨rfl, h⟩

theorem respects_reports {R : Session S → Session S → Prop} {α : Type} (event : α → Event S)
    (h : ∀ a, Respects R (report (event a))) (as : List α) :
    Respects R (forIn as PUnit.unit fun a _ => do
      report (event a)
      pure (ForInStep.yield PUnit.unit) : Action S PUnit) := by
  induction as with
  | nil => exact respects_pure _
  | cons a as ih =>
    simp only [List.forIn_cons, bind_assoc, pure_bind]
    exact (h a).bind fun _ => ih

end Session

namespace Engine
open Session

theorem eventOf_congr {s t : Session S} (h : s.Alike p q t) (clock : Clock) (g : Game) :
    eventOf s clock g = eventOf t clock g := by
  funext step
  cases step <;> simp only [eventOf, h.elapsed, h.allocator]

theorem watch_congr {s t : Session S} (h : s.Alike p q t) (l : Limits) (clock : Clock)
    (e : Engine) : e.watch s l clock = e.watch t l clock := by
  unfold watch outOfTime
  rw [h.elapsedTime, h.shouldStop]

theorem goal_congr {s t : Session S} (h : s.Alike p q t) (l : Limits) (clock : Clock)
    (e : Engine) : e.goal s l clock = e.goal t l clock := by
  unfold goal optimumReached
  rw [h.hasClock, h.elapsed, h.allocator]

variable [Scalar S]

theorem respects_wrapUp (us : Side) (now : Int) (nodes : Nat) :
    Respects (Alike p q) (wrapUp (S := S) us now nodes) := by
  refine (respects_finish nodes us).bind fun _ s t h => ?_
  rw [run_get_bind, run_get_bind, h.elapsedTime]
  exact respects_report _ s t h

theorem respects_conclude (g : Game) (clock : Clock) (r : Search.Progress Move) :
    Respects (Alike p q) (conclude (S := S) g clock r) := by
  intro s t h
  unfold conclude
  rw [run_get_bind, run_get_bind, eventOf_congr h clock g]
  refine (respects_reports _ (fun _ => respects_report _) r.steps).bind (fun _ => ?_) s t h
  cases r.fault with
  | some fault => exact fun s t h => ⟨rfl, h⟩
  | none =>
    exact (respects_wrapUp g.position.turn (clock .ending r.nodes) r.nodes).bind
      fun _ => respects_pure _

structure Thought.Alike (p q : List String) (x y : Thought S) : Prop where
  move : x.move = y.move
  record : x.record = y.record
  nodes : x.nodes = y.nodes
  game : x.game = y.game
  session : x.session.Alike p q y.session

theorem thinkBy_alike (e : Engine) (g : Game) (limits : Limits) (clock : Clock)
    (last : SearchRecord) {s t : Session S} (h : s.Alike p q t) :
    (e.thinkBy g limits clock last s).Alike p q (e.thinkBy g limits clock last t) := by
  obtain ⟨hresult, hstarted⟩ :=
    respects_start limits (.position g.position.ply g.position.turn) none s t h
  unfold thinkBy
  rcases hs : (Session.start limits (.position g.position.ply g.position.turn) none).run.run s with
    ⟨result, s₁⟩
  rcases ht : (Session.start limits (.position g.position.ply g.position.turn) none).run.run t with
    ⟨result', t₁⟩
  rw [hs, ht] at hresult hstarted
  obtain rfl : result = result' := hresult
  have h₁ : s₁.Alike p q t₁ := hstarted
  simp only [hs, ht]
  cases result with
  | error fault => exact ⟨rfl, rfl, rfl, rfl, h₁⟩
  | ok _ =>
    simp only [h₁.limits, watch_congr h₁, goal_congr h₁]
    rcases searchOn chessRules Game.pop (e.watch t₁ (t₁.limits.getD limits) clock)
      (e.goal t₁ (t₁.limits.getD limits) clock) g with ⟨_ | r, game⟩
    · obtain ⟨hfinish, hafter⟩ := respects_finish 0 g.position.turn s₁ t₁ h₁
      simp only
      exact ⟨congrArg (Except.map fun _ => none) hfinish, rfl, rfl, rfl, hafter⟩
    · obtain ⟨hmove, hafter⟩ := respects_conclude g clock r s₁ t₁ h₁
      exact ⟨hmove, rfl, rfl, rfl, hafter⟩

end Engine
end Zeitnot
