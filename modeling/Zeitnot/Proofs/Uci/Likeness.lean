import Zeitnot.Proofs.Engine.Likeness
import Zeitnot.Proofs.Uci.Conversation
set_option autoImplicit false

namespace Zeitnot.Uci
open Chess Number Text Stateful

section
variable {S C : Type} {p q : List String}

structure State.Alike (p q : List String) (u v : State S C) : Prop where
  engine : u.engine = v.engine
  record : u.record = v.record
  game : u.game = v.game
  moveNumber : u.moveNumber = v.moveNumber
  clock : u.clock = v.clock
  session : u.session.Alike p q v.session

def AlikeReplies {α : Type} (p q : List String) (x y : α × State S C) : Prop :=
  x.1 = y.1 ∧ x.2.Alike p q y.2

theorem boundsLine_congr {s t : Session S} (h : s.Alike p q t) (us : Side) :
    boundsLine s us = boundsLine t us := by
  rw [boundsLine, boundsLine, h.limits, h.allocator]

theorem respects_tellSetting [Scalar S] (name : String) :
    Respects (Session.Alike p q) (tellSetting (S := S) name) := by
  intro s t h
  unfold tellSetting
  rw [run_get_bind, run_get_bind, h.options]
  exact Session.respects_report _ s t h

namespace State
variable [Scalar S] {u v : State S C}

omit [Scalar S] in
theorem Alike.onSession {act : Session.Action S Unit} (hact : Respects (Session.Alike p q) act)
    (h : u.Alike p q v) : AlikeReplies p q (u.onSession act) (v.onSession act) := by
  obtain ⟨hresult, hsession⟩ := hact u.session v.session h.session
  exact ⟨congrArg (Except.mapError Fault.session) hresult, { h with session := hsession }⟩

theorem Alike.answer (h : u.Alike p q v) (us : Side) (move : Option Move) :
    AlikeReplies p q (u.answer us move) (v.answer us move) := by
  unfold State.answer
  rw [boundsLine_congr h.session, h.record, h.game]
  cases move with
  | none =>
    obtain ⟨hresult, hafter⟩ := h.onSession (Session.respects_report _)
    exact ⟨congrArg (Except.map _) hresult, hafter⟩
  | some m =>
    obtain ⟨hresult, hafter⟩ := h.onSession (Session.respects_report _)
    exact ⟨congrArg (Except.map _) hresult, hafter⟩

theorem Alike.handleOption (h : u.Alike p q v) (command : String) :
    AlikeReplies p q (u.handleOption command) (v.handleOption command) := by
  rw [handleOption_eq, handleOption_eq]
  split
  · exact ⟨rfl, h⟩
  · rename_i name value _
    have hact : Respects (Session.Alike p q)
        (Session.setOption (S := S) name (.text value) >>= fun _ => tellSetting name) :=
      (Session.respects_setOption name _).bind fun _ => respects_tellSetting name
    obtain ⟨hresult, hafter⟩ := h.onSession hact
    exact ⟨congrArg (Except.map _) hresult, hafter⟩

theorem respects_announce (u : State S C) :
    Respects (Session.Alike p q) u.announce :=
  (Session.respects_report _).bind fun _ => Session.respects_report _

theorem Alike.announce (h : u.Alike p q v) : u.announce = v.announce := by
  rw [State.announce, State.announce, h.moveNumber, h.game]

variable [Timepiece C]

omit [Scalar S] in
theorem Alike.after (h : u.Alike p q v) {x y : Engine.Thought S} (hxy : x.Alike p q y) :
    (u.after x).Alike p q (v.after y) where
  engine := h.engine
  record := hxy.record
  game := hxy.game
  moveNumber := congrArg (· + 1) h.moveNumber
  clock := by rw [State.after, State.after, h.clock, hxy.nodes]
  session := hxy.session

theorem Alike.search (h : u.Alike p q v) (limits : Limits) :
    AlikeReplies p q (u.search limits) (v.search limits) := by
  obtain ⟨j, hj, hu⟩ := u.search_eq limits
  obtain ⟨k, hk, hv⟩ := v.search_eq limits
  -- The same is announced, so the journals still differ only in what they held before.
  have hannounced : Session.Alike p q { u.session with journal := j }
      { v.session with journal := k } := by
    obtain ⟨-, hsessions⟩ := respects_announce u u.session v.session h.session
    rwa [hj, h.announce, hk] at hsessions
  have hthought := Engine.thinkBy_alike u.engine u.game limits (Timepiece.shown u.clock) u.record
    hannounced
  rw [hu, hv, ← h.engine, ← h.game, ← h.clock, ← h.record]
  generalize u.engine.thinkBy u.game limits (Timepiece.shown u.clock) u.record
    { u.session with journal := j } = x at hthought ⊢
  generalize u.engine.thinkBy u.game limits (Timepiece.shown u.clock) u.record
    { v.session with journal := k } = y at hthought ⊢
  have hafter := h.after hthought
  rw [← hthought.move]
  cases x.move with
  | error fault => exact ⟨rfl, hafter⟩
  | ok move => exact hafter.answer u.game.position.turn move

theorem Alike.handle (h : u.Alike p q v) (command : String) :
    AlikeReplies p q (u.handle command) (v.handle command) := by
  unfold State.handle
  cases Request.of command with
  | identify =>
    exact ⟨congrArg (fun o => Except.ok (identification o)) h.session.options, h⟩
  | newGame =>
    exact ⟨rfl, { h with
      game := rfl
      moveNumber := rfl
      session := { h.session with
        allocator := congrArg Allocator.clear h.session.allocator
        adjust := rfl } }⟩
  | position =>
    dsimp only
    unfold State.handlePosition
    cases readPosition command with
    | error fault => exact ⟨rfl, h⟩
    | ok g => exact ⟨rfl, { h with game := rfl }⟩
  | go =>
    dsimp only
    unfold State.handleGo
    rw [h.clock]
    cases readLimits (Timepiece.reading v.clock) command with
    | error fault => exact ⟨rfl, h⟩
    | ok limits => exact h.search limits
  | setOption => exact h.handleOption command
  | isReady => exact ⟨rfl, h⟩
  | unknown => exact ⟨rfl, h⟩

theorem Alike.respond (h : u.Alike p q v) (command : String) :
    AlikeReplies p q (u.respond command) (v.respond command) := by
  obtain ⟨hresult, hstate⟩ := h.handle command
  unfold State.respond
  generalize u.handle command = x at hresult hstate ⊢
  generalize v.handle command = y at hresult hstate ⊢
  obtain ⟨result, u₁⟩ := x
  obtain ⟨result', v₁⟩ := y
  obtain rfl : result = result' := hresult
  cases result with
  | ok lines => exact ⟨rfl, hstate⟩
  | error fault => exact ⟨rfl, (hstate.onSession (Session.respects_report _)).2⟩

theorem Alike.receive (h : u.Alike p q v) {line : String} (hq : strip line ≠ "quit") :
    ∃ out u' v', u.receive line = some (out, u') ∧ v.receive line = some (out, v') ∧
      u'.Alike p q v' := by
  unfold State.receive
  simp only [if_neg hq]
  split
  · exact ⟨[], u, v, rfl, rfl, h⟩
  · obtain ⟨hout, hafter⟩ := h.respond (strip line)
    refine ⟨(u.respond (strip line)).1, (u.respond (strip line)).2, (v.respond (strip line)).2,
      rfl, ?_, hafter⟩
    rw [hout]

theorem Alike.converse (h : u.Alike p q v) (lines : List String) :
    AlikeReplies p q (u.converse lines) (v.converse lines) := by
  induction lines generalizing u v with
  | nil => exact ⟨rfl, h⟩
  | cons line rest ih =>
    by_cases hq : strip line = "quit"
    · simp only [State.converse, receive_of_quit hq]
      exact ⟨rfl, h⟩
    · obtain ⟨out, u', v', hu, hv, h'⟩ := h.receive hq
      obtain ⟨houts, hafter⟩ := ih h'
      simp only [State.converse, hu, hv]
      exact ⟨congrArg (out :: ·) houts, hafter⟩

end State
end
end Zeitnot.Uci
