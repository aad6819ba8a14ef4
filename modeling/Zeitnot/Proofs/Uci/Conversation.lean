import Zeitnot.Proofs.Uci.Commands
/-!
Conversations line by line: every line that is heard is answered in the state that the lines before
it have left. The current game is the one that was set up last; searches leave it alone, or leave a
legal move on it if they cannot look at the clock.
-/
set_option autoImplicit false

namespace Zeitnot.Uci
open Chess Number Text

/-- The lines of input that are read: those before the one that ends the conversation. -/
def heard (lines : List String) : List String := lines.takeWhile (strip · ≠ "quit")

/-- The game that the words of a position command start from, those of its moves apart. -/
def startOf (line : String) (head : List String) : Except Fault Game :=
  match head.drop 1 with
  | "startpos" :: _ => .ok .initial
  | "fen" :: fields => ((Fen.read (unwords fields)).mapError .fen).map .start
  | _ => .error (.malformedPosition line)

theorem readPosition_eq {line : String} {head moves : List String}
    (h : (splitAtWord? "moves" (words line)).getD (words line, []) = (head, moves)) :
    readPosition line =
      (startOf line head).bind fun g => (Game.pushAll moves g).mapError .move := by
  unfold readPosition
  simp only [h]
  rfl

theorem rooksAtHome_of_startOf {line : String} {head : List String} {g : Game}
    (h : startOf line head = .ok g) : g.position.RooksAtHome := by
  unfold startOf at h
  split at h
  · cases h
    exact Position.rooksAtHome_initial
  · rename_i fields _
    cases hp : Fen.read (unwords fields) with
    | error fault =>
      rw [hp] at h
      cases h
    | ok p =>
      rw [hp] at h
      cases h
      exact Fen.rooksAtHome_read hp
  · cases h

theorem readPosition_ok {line : String} {g : Game} (h : readPosition line = .ok g) :
    ∃ head moves start, (splitAtWord? "moves" (words line)).getD (words line, []) = (head, moves) ∧
      startOf line head = .ok start ∧ Game.pushAll moves start = .ok g := by
  rcases hsplit : (splitAtWord? "moves" (words line)).getD (words line, []) with ⟨head, moves⟩
  rw [readPosition_eq hsplit] at h
  obtain ⟨start, hstart, h⟩ := Stateful.bind_ok h
  cases hpush : Game.pushAll moves start with
  | error fault =>
    rw [hpush] at h
    cases h
  | ok g' =>
    rw [hpush] at h
    obtain rfl : g' = g := Except.ok.inj h
    exact ⟨head, moves, start, rfl, hstart, hpush⟩

/-- The game that a command sets up: a new one, or one that it describes. -/
def gameSet? (command : String) : Option Game :=
  match Request.of command with
  | .newGame => some .initial
  | .position => (readPosition command).toOption
  | _ => none

namespace State
variable {S C : Type} [Scalar S] [Timepiece C]

theorem receive_of_quit {line : String} (h : strip line = "quit") (u : State S C) :
    u.receive line = none := by
  unfold receive
  simp [h]

theorem receive_of_request {line : String} (h : Request.of (strip line) ≠ .unknown)
    (u : State S C) : u.receive line = some (u.respond (strip line)) := by
  have hempty : (strip line).isEmpty = false := by
    rw [Bool.eq_false_iff]
    intro he
    rw [String.isEmpty_iff] at he
    exact h (he ▸ Request.of_empty)
  have hquit : strip line ≠ "quit" := fun hq => h (hq ▸ Request.of_quit)
  unfold receive
  simp [hempty, hquit]

theorem exists_receive {line : String} (h : strip line ≠ "quit") (u : State S C) :
    ∃ out u', u.receive line = some (out, u') := by
  unfold receive
  simp only [h, if_false]
  split
  · exact ⟨_, _, rfl⟩
  · exact ⟨_, _, rfl⟩

theorem converse_getElem? {lines : List String} {i : Nat} {line : String}
    (h : (heard lines)[i]? = some line) (u : State S C) :
    ∃ out, (u.converse (lines.take i)).2.receive line =
        some (out, (u.converse (lines.take (i + 1))).2) ∧
      (u.converse lines).1[i]? = some out := by
  -- For every state: the rest is a conversation that starts in the state after the first line.
  induction lines generalizing u i with
  | nil => simp [heard] at h
  | cons first rest ih =>
    by_cases hq : strip first = "quit"
    · simp [heard, hq] at h
    · obtain ⟨out, u', hfirst⟩ := exists_receive hq u
      have hheard : heard (first :: rest) = first :: heard rest := by
        simp [heard, hq]
      rw [hheard] at h
      cases i with
      | zero =>
        obtain rfl : first = line := by simpa using h
        exact ⟨out, by simp [converse, hfirst], by simp [converse, hfirst]⟩
      | succ i =>
        obtain ⟨out', hreceive, hout⟩ := ih (by simpa using h) u'
        exact ⟨out', by simpa [converse, hfirst] using hreceive,
          by simpa [converse, hfirst] using hout⟩

theorem converse_induction {P : State S C → Prop}
    (hstep : ∀ u line out u', P u → u.receive line = some (out, u') → P u') {u : State S C}
    (h : P u) (lines : List String) : P (u.converse lines).2 := by
  induction lines generalizing u with
  | nil => exact h
  | cons line rest ih =>
    rw [converse]
    cases hr : u.receive line with
    | none => exact h
    | some answer =>
      obtain ⟨out, u'⟩ := answer
      exact ih (hstep u line out u' h hr)

/-! ### The current game -/

theorem search_keeps (u : State S C) (limits : Limits) :
    (u.search limits).2.engine = u.engine ∧
      ((u.search limits).2.game = u.game ∨ u.engine.checkEvery = 0 ∧
        ∃ m ∈ u.game.legalMoves, (u.search limits).2.game = u.game.push m) := by
  obtain ⟨j, -, hj⟩ := u.search_eq limits
  have hgame := Engine.thinkBy_game u.engine u.game limits (Timepiece.shown u.clock) u.record
    { u.session with journal := j }
  simp only [Engine.mem_moves_chessRules] at hgame
  generalize u.engine.thinkBy u.game limits (Timepiece.shown u.clock) u.record
    { u.session with journal := j } = t at hj hgame
  rw [hj]
  cases t.move with
  | error fault => exact ⟨rfl, hgame⟩
  | ok move =>
    obtain ⟨k, hk⟩ := (u.after t).answer_eq u.game.position.turn move
    simp only [hk]
    exact ⟨rfl, hgame⟩

/-- What a command makes of the engine and the current game. -/
def Moves (u u' : State S C) (command : String) : Prop :=
  u'.engine = u.engine ∧ (u'.game = (gameSet? command).getD u.game ∨
    u.engine.checkEvery = 0 ∧ Request.of command = .go ∧
      ∃ m ∈ u.game.legalMoves, u'.game = u.game.push m)

theorem handle_moves (u : State S C) (command : String) :
    u.Moves (u.handle command).2 command := by
  unfold handle Moves gameSet?
  cases hr : Request.of command with
  | go =>
    dsimp only
    unfold handleGo
    split
    · exact ⟨rfl, .inl rfl⟩
    · obtain ⟨hengine, hgame⟩ := u.search_keeps _
      exact ⟨hengine, hgame.imp id fun ⟨he, hm⟩ => ⟨he, rfl, hm⟩⟩
  | position =>
    dsimp only
    unfold handlePosition
    cases readPosition command <;> exact ⟨rfl, .inl rfl⟩
  | setOption =>
    dsimp only
    unfold handleOption
    split <;> exact ⟨rfl, .inl rfl⟩
  | _ => exact ⟨rfl, .inl rfl⟩

theorem respond_moves (u : State S C) (command : String) :
    u.Moves (u.respond command).2 command := by
  have h := u.handle_moves command
  unfold respond
  split <;> rename_i hr <;> rw [hr] at h <;> exact h

theorem receive_moves {u u' : State S C} {line : String} {out : List String}
    (h : u.receive line = some (out, u')) : u.Moves u' (strip line) := by
  have hmoves := u.respond_moves (strip line)
  unfold receive at h
  dsimp only at h
  split at h
  · rename_i he
    cases h
    rw [String.isEmpty_iff] at he
    rw [he]
    exact ⟨rfl, .inl (by simp [gameSet?, Request.of_empty])⟩
  · split at h
    · cases h
    · obtain rfl : (u.respond (strip line)).2 = u' := congrArg Prod.snd (Option.some.inj h)
      exact hmoves

theorem rooksAtHome_of_gameSet {command : String} {g : Game} (h : gameSet? command = some g) :
    g.position.RooksAtHome := by
  unfold gameSet? at h
  split at h
  · cases h
    exact Position.rooksAtHome_initial
  · cases hread : readPosition command with
    | error fault =>
      rw [hread] at h
      cases h
    | ok g' =>
      rw [hread] at h
      obtain rfl : g' = g := Option.some.inj h
      obtain ⟨head, moves, start, -, hstart, hpush⟩ := readPosition_ok hread
      exact Game.rooksAtHome_pushAll (rooksAtHome_of_startOf hstart) hpush
  · cases h

theorem rooksAtHome_of_receive {u u' : State S C} {line : String} {out : List String}
    (hu : u.game.position.RooksAtHome) (h : u.receive line = some (out, u')) :
    u'.game.position.RooksAtHome := by
  obtain ⟨-, hgame | ⟨-, -, m, hm, hgame⟩⟩ := receive_moves h
  · rw [hgame]
    cases hset : gameSet? (strip line) with
    | none => exact hu
    | some g => exact rooksAtHome_of_gameSet hset
  · rw [hgame]
    exact Game.rooksAtHome_push hu hm

end State
end Zeitnot.Uci
