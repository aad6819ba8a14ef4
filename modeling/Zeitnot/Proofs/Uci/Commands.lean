import Zeitnot.Proofs.Chess.CastlingRights
import Zeitnot.Proofs.Engine.Answer
import Zeitnot.Proofs.Text.Words
import Zeitnot.Uci.Protocol
/-!
What the commands of the protocol do, one law for each: how a command is known, what a failure
leaves, and what a search sends and keeps. What they write to the journal is left open.
-/
set_option autoImplicit false

namespace Zeitnot.Session
open Number

variable {S : Type} [Scalar S]

theorem run_report_of_lines {e : Event S} {lines : List String} (h : e.lines = .ok lines)
    (s : Session S) : ∃ j, s.journal.write e = .ok j ∧
      (report e).run.run s = (.ok (), { s with journal := j }) := by
  obtain ⟨j, hj, -⟩ := s.journal.write_of_lines h
  exact ⟨j, hj, by rw [run_report, hj]⟩

end Zeitnot.Session

namespace Zeitnot.Uci
open Chess Number Text Stateful

/-! ### How commands are known -/

theorem Request.of_empty : Request.of "" = .unknown := by decide +kernel

theorem Request.of_quit : Request.of "quit" = .unknown := by decide +kernel

/-- A line that starts with the order to search is one, unless it is empty or ends it all. -/
theorem Request.of_go {line : String} (h : "go".toList <+: line.toList) : of line = .go := by
  obtain ⟨rest, hrest⟩ := h
  have hline : line = "go" ++ String.ofList rest := by
    apply String.toList_injective
    simpa using hrest.symm
  have hne {t : String} (ht : t.toList.head? ≠ some 'g') : line ≠ t := by
    rintro rfl
    rw [← hrest] at ht
    exact ht rfl
  have hnot : "position".toList.isPrefixOf line.toList = false := by
    rw [← hrest]
    rfl
  have hgo : "go".toList.isPrefixOf line.toList = true := by
    rw [← hrest]
    simp
  -- All commands that are looked for before it start with another letter.
  unfold of
  simp only [hne (t := "uci") (by decide), hne (t := "isready") (by decide),
    hne (t := "ucinewgame") (by decide), hnot, hgo, if_true, if_false, Bool.false_eq_true]

/-! ### What they do -/

def complaint (fault : Fault) : String := "info string Error: " ++ fault.message

def bestLine (move : Option Move) : String := "bestmove " ++ move.elim "0000" Move.text

def infoLine (record : SearchRecord) : String :=
  s!"info depth {record.depth} nodes {record.nodes}"

def boundsText (a : Allocator) : String :=
  s!"info string optimum {a.optimum} maximum {a.maximum}"

section
variable {S C : Type}

theorem boundsLine_of_limits {s : Session S} {l : Limits} (h : s.limits = some l) (us : Side) :
    boundsLine s us = if l.time.get us = 0 then [] else [boundsText s.allocator] := by
  rw [boundsLine, h]
  rfl

theorem eq_boundsText_of_mem {s : Session S} {us : Side} {line : String}
    (h : line ∈ boundsLine s us) : line = boundsText s.allocator := by
  unfold boundsLine at h
  split at h
  · split at h
    · simp at h
    · exact List.mem_singleton.1 h
  · simp at h

def State.withJournal (u : State S C) (j : Journal) : State S C :=
  { u with session := { u.session with journal := j } }

def State.after [Timepiece C] (u : State S C) (t : Engine.Thought S) : State S C :=
  { u with
    record := t.record
    game := t.game
    moveNumber := u.moveNumber + 1
    session := t.session
    clock := Timepiece.after u.clock t.nodes }

variable [Scalar S]

theorem State.onSession_report {e : Event S} {lines : List String} (h : e.lines = .ok lines)
    (u : State S C) : ∃ j, u.session.journal.write e = .ok j ∧
      u.onSession (Session.report e) = (.ok (), u.withJournal j) := by
  obtain ⟨j, hwrite, hj⟩ := Session.run_report_of_lines h u.session
  refine ⟨j, hwrite, ?_⟩
  unfold onSession
  rw [hj]
  rfl

theorem State.answer_eq (u : State S C) (us : Side) (move : Option Move) : ∃ j,
    u.answer us move =
      (.ok (boundsLine u.session us ++ [infoLine u.record, bestLine move]), u.withJournal j) := by
  unfold answer
  cases move with
  | none =>
    obtain ⟨j, -, hj⟩ :=
      u.onSession_report (e := .failed "No legal move, sending null move") rfl
    exact ⟨j, by simp only [hj, List.append_assoc]; rfl⟩
  | some m =>
    obtain ⟨j, -, hj⟩ :=
      u.onSession_report (e := .moveSent (u.game.position.san m) !u.record.interrupted) rfl
    exact ⟨j, by simp only [hj, List.append_assoc]; rfl⟩

def tellSetting (name : String) : Session.Action S Unit := do
  let shown := match (← get).options.get name with
    | .ok v => v.plain
    | .error _ => ""
  Session.report (.info s!"Option {name} set to {shown}")

theorem run_tellSetting (name : String) (s : Session S) :
    ∃ j, (tellSetting name).run.run s = (.ok (), { s with journal := j }) := by
  unfold tellSetting
  rw [run_get_bind]
  obtain ⟨j, -, hj⟩ := Session.run_report_of_lines (e := .info _) rfl s
  exact ⟨j, hj⟩

theorem State.handleOption_eq (u : State S C) (command : String) :
    u.handleOption command =
      match readOption command with
      | .error fault => (.error fault, u)
      | .ok (name, value) =>
        let (result, u) := u.onSession
          (Session.setOption name (.text value) >>= fun _ => tellSetting name)
        (result.map fun _ => [], u) := rfl

theorem State.respond_failed [Timepiece C] {u u' : State S C} {line : String} {fault : Fault}
    (h : u.handle line = (.error fault, u')) :
    ∃ j, u'.session.journal.write (.failed fault.message : Event S) = .ok j ∧
      u.respond line = ([complaint fault], u'.withJournal j) := by
  obtain ⟨j, hwrite, hj⟩ := u'.onSession_report (e := .failed fault.message) rfl
  exact ⟨j, hwrite, by rw [respond, h]; simp only [hj]; rfl⟩

variable [Timepiece C]

def State.announce (u : State S C) : Session.Action S Unit := do
  Session.report (.note s!"=== MOVE {u.moveNumber + 1} ===")
  Session.report (.note s!"Board FEN: {Fen.text u.game.position}")

theorem State.search_eq (u : State S C) (limits : Limits) : ∃ j,
    u.announce.run.run u.session = (.ok (), { u.session with journal := j }) ∧
      let t := u.engine.thinkBy u.game limits (Timepiece.shown u.clock) u.record
        { u.session with journal := j }
      u.search limits =
        match t.move with
        | .error fault => (.error (.session fault), u.after t)
        | .ok move => (u.after t).answer u.game.position.turn move := by
  obtain ⟨j, -, hj⟩ := Session.run_report_of_lines
    (e := .note s!"=== MOVE {u.moveNumber + 1} ===") rfl u.session
  obtain ⟨k, -, hk⟩ := Session.run_report_of_lines
    (e := .note s!"Board FEN: {Fen.text u.game.position}") rfl { u.session with journal := j }
  refine ⟨k, ?_, ?_⟩
  · simp only [announce, run_bind, hj, hk]
  · unfold search
    simp only [onSession, run_bind, hj, hk]
    rfl

theorem State.respond_go {command : String} (h : Request.of command = .go) (u : State S C) :
    (∃ fault, (u.respond command).1 = [complaint fault]) ∨
      ∃ limits j, readLimits (Timepiece.reading u.clock) command = .ok limits ∧
        let t := u.engine.thinkBy u.game limits (Timepiece.shown u.clock) u.record
          { u.session with journal := j }
        ∃ move k, t.move = .ok move ∧ u.respond command =
          (boundsLine t.session u.game.position.turn ++ [infoLine t.record, bestLine move],
            (u.after t).withJournal k) := by
  have hhandle : u.handle command = u.handleGo command := by rw [handle, h]
  unfold handleGo at hhandle
  cases hread : readLimits (Timepiece.reading u.clock) command with
  | error fault =>
    rw [hread] at hhandle
    obtain ⟨j, -, hj⟩ := respond_failed hhandle
    exact .inl ⟨_, by rw [hj]⟩
  | ok limits =>
    obtain ⟨j, -, hj⟩ := u.search_eq limits
    rw [hread] at hhandle
    simp only [hj] at hhandle
    cases hmove : (u.engine.thinkBy u.game limits (Timepiece.shown u.clock) u.record
      { u.session with journal := j }).move with
    | error fault =>
      simp only [hmove] at hhandle
      obtain ⟨k, -, hk⟩ := respond_failed hhandle
      exact .inl ⟨_, by rw [hk]⟩
    | ok move =>
      obtain ⟨k, hk⟩ := (u.after (u.engine.thinkBy u.game limits (Timepiece.shown u.clock) u.record
        { u.session with journal := j })).answer_eq u.game.position.turn move
      simp only [hmove, hk] at hhandle
      refine .inr ⟨limits, j, rfl, move, k, hmove, ?_⟩
      rw [respond, hhandle]
      rfl

end
end Zeitnot.Uci
