import Zeitnot.Proofs.Uci.Likeness
set_option autoImplicit false

namespace Zeitnot.Uci
open Chess Number Text Stateful

namespace State
variable {S C : Type} [Scalar S] [Timepiece C]

/-- Commands that are refused as they are read, and why: a position that is malformed or has a bad
text or move, an option that is malformed, unknown or given a bad value, limits with a bad word. -/
inductive Refused (u : State S C) (command : String) : Fault → Prop
  | position {fault : Fault} : Request.of command = .position →
    readPosition command = .error fault → Refused u command fault
  | malformed {fault : Fault} : Request.of command = .setOption →
    readOption command = .error fault → Refused u command fault
  | option {name value : String} {fault : OptionFault} : Request.of command = .setOption →
    readOption command = .ok (name, value) →
    u.session.options.set name (.text value) = .error fault →
    Refused u command (.session (.option fault))
  | go {fault : GoFault} : Request.of command = .go →
    readLimits (Timepiece.reading u.clock) command = .error fault → Refused u command (.go fault)

theorem Refused.handle {u : State S C} {command : String} {fault : Fault}
    (h : u.Refused command fault) :
    u.handle command = (.error fault, u) ∧ Request.of command ≠ .unknown := by
  cases h with
  | position hr hread =>
    exact ⟨by rw [State.handle, hr]; simp only [handlePosition, hread], by rw [hr]; decide⟩
  | malformed hr hread =>
    exact ⟨by rw [State.handle, hr]; simp only [State.handleOption, hread], by rw [hr]; decide⟩
  | option hr hread hset =>
    refine ⟨?_, by rw [hr]; decide⟩
    rw [State.handle, hr]
    simp only [handleOption_eq, hread, State.onSession, run_bind, Session.run_setOption, hset]
    rfl
  | go hr hread =>
    exact ⟨by rw [State.handle, hr]; simp only [handleGo, hread], by rw [hr]; decide⟩

theorem accepted_or_refused {line : String}
    (h : Request.of (strip line) = .position ∨ Request.of (strip line) = .setOption)
    (u : State S C) :
    (∃ u', u.receive line = some ([], u')) ∨ ∃ fault, u.Refused (strip line) fault := by
  have hknown : Request.of (strip line) ≠ .unknown := by rcases h with h | h <;> rw [h] <;> decide
  rw [receive_of_request hknown]
  rcases h with h | h
  · cases hread : readPosition (strip line) with
    | error fault => exact .inr ⟨fault, .position h hread⟩
    | ok g =>
      have hhandle : u.handle (strip line) = (.ok [], { u with game := g }) := by
        rw [State.handle, h]
        simp only [handlePosition, hread]
      exact .inl ⟨_, by rw [State.respond, hhandle]⟩
  · cases hread : readOption (strip line) with
    | error fault => exact .inr ⟨fault, .malformed h hread⟩
    | ok found =>
      obtain ⟨name, value⟩ := found
      cases hset : u.session.options.set name (.text value) with
      | error fault => exact .inr ⟨_, .option h hread hset⟩
      | ok options =>
        obtain ⟨j, hj⟩ := run_tellSetting name { u.session with options }
        have hhandle : ∃ u', u.handle (strip line) = (.ok [], u') := by
          rw [State.handle, h]
          simp only [handleOption_eq, hread, State.onSession, run_bind, Session.run_setOption,
            hset, hj]
          exact ⟨_, rfl⟩
        obtain ⟨u', hu'⟩ := hhandle
        exact .inl ⟨u', by rw [State.respond, hu']⟩

/-- A refused command is answered by one line that says why. It leaves the state as it was, but for
what the journal is told, and all that is asked later is answered as if it had not been sent. -/
theorem refused_without_trace (u : State S C) {line : String} {fault : Fault}
    (h : u.Refused (strip line) fault) :
    ∃ j, u.session.journal.write (.failed fault.message : Event S) = .ok j ∧
      u.receive line = some ([complaint fault], u.withJournal j) ∧
      ∀ rest, (u.converse (line :: rest)).1 = [complaint fault] :: (u.converse rest).1 ∧
        (u.converse (line :: rest)).2.Alike j.lines u.session.journal.lines
          (u.converse rest).2 := by
  obtain ⟨hhandle, hknown⟩ := h.handle
  obtain ⟨j, hwrite, hrespond⟩ := respond_failed hhandle
  have hreceive : u.receive line = some ([complaint fault], u.withJournal j) := by
    rw [receive_of_request hknown, hrespond]
  refine ⟨j, hwrite, hreceive, fun rest => ?_⟩
  have hparallel : j.Parallel j.lines u.session.journal.lines u.session.journal :=
    Journal.parallel_of_quiet (Journal.quiet_write hwrite)
  have hsame : (u.withJournal j).Alike j.lines u.session.journal.lines u :=
    ⟨rfl, rfl, rfl, rfl, rfl, rfl, rfl, rfl, rfl, rfl, hparallel⟩
  obtain ⟨houts, hafter⟩ := hsame.converse rest
  simp only [State.converse, hreceive]
  exact ⟨congrArg ([complaint fault] :: ·) houts, hafter⟩

theorem illegal_move_without_trace :
    let u := State.start .standard (⟨0, 1⟩ : NodeClock)
      (Session.fresh Constants.tuned .standard .attentive)
    let line := "position startpos moves e2e4 e7e4"
    ∃ fault, u.Refused (strip line) fault ∧ (∃ j, u.receive line =
      some ([complaint fault], u.withJournal j)) ∧
      (u.converse [line, "go nodes 1"]).1 = [complaint fault] :: (u.converse ["go nodes 1"]).1 := by
  intro u line
  have hrefused : u.Refused (strip line) (.move (.illegal "e7e4"
      "rnbqkbnr/pppppppp/8/8/4P3/8/PPPP1PPP/RNBQKBNR b KQkq - 0 1")) :=
    .position (by decide +kernel) (by decide +kernel)
  obtain ⟨j, -, hreceive, hlater⟩ := refused_without_trace u hrefused
  exact ⟨_, hrefused, ⟨j, hreceive⟩, (hlater ["go nodes 1"]).1⟩

end State
end Zeitnot.Uci
