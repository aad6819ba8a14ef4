import Zeitnot.Proofs.Uci.Conversation
set_option autoImplicit false

namespace Zeitnot

namespace Chess.Game

theorem pushAll_append {ms ms' : List String} {g g' : Game} :
    pushAll (ms ++ ms') g = .ok g' ↔ ∃ g₁, pushAll ms g = .ok g₁ ∧ pushAll ms' g₁ = .ok g' := by
  induction ms generalizing g with
  | nil => simp [pushAll]
  | cons m ms ih =>
    simp only [List.cons_append, pushAll]
    cases g.position.readMove m with
    | error fault => simp
    | ok mv => exact ih

theorem pushAll_singleton {m : String} {g g' : Game} :
    pushAll [m] g = .ok g' ↔ ∃ mv, g.position.readMove m = .ok mv ∧ g' = g.push mv := by
  simp only [pushAll]
  cases g.position.readMove m with
  | error fault => simp
  | ok mv => simp [eq_comm]

end Chess.Game

namespace Uci
open Chess Number Text

/-! ### Positions with moves -/

theorem splitAtWord?_of_not_mem {w : String} {ws : List String} (h : w ∉ ws) :
    splitAtWord? w ws = none := by
  simp [splitAtWord?, h]

theorem splitAtWord?_append {w : String} {head : List String} (h : w ∉ head)
    (tail : List String) : splitAtWord? w (head ++ w :: tail) = some (head, tail) := by
  have hne : ∀ v ∈ head, (decide (v ≠ w)) = true := fun v hv => by
    simp only [ne_eq, decide_eq_true_eq]
    rintro rfl
    exact h hv
  have htake : (head ++ w :: tail).takeWhile (· ≠ w) = head := by
    rw [List.takeWhile_append_of_pos hne]
    simp
  have hdrop : (head ++ w :: tail).dropWhile (· ≠ w) = w :: tail := by
    rw [List.dropWhile_append_of_pos hne]
    simp
  unfold splitAtWord?
  rw [if_pos (by simp), htake, hdrop]
  rfl

theorem startOf_ok_congr (line line' : String) {head : List String} {g : Game} :
    startOf line head = .ok g ↔ startOf line' head = .ok g := by
  unfold startOf
  split <;> simp

/-- The words of a position command with the moves `ms`, which may be left out if there are none. -/
def SetsUp (head ms : List String) (line : String) : Prop :=
  "moves" ∉ head ∧ (words line = head ++ "moves" :: ms ∨ ms = [] ∧ words line = head)

theorem readPosition_of_setsUp {head ms : List String} {line : String} (h : SetsUp head ms line)
    {g : Game} : readPosition line = .ok g ↔
      ∃ start, startOf line head = .ok start ∧ Game.pushAll ms start = .ok g := by
  have hsplit : (splitAtWord? "moves" (words line)).getD (words line, []) = (head, ms) := by
    obtain ⟨hmem, hwords | ⟨rfl, hwords⟩⟩ := h
    · rw [hwords, splitAtWord?_append hmem]
      rfl
    · rw [hwords, splitAtWord?_of_not_mem hmem]
      rfl
  rw [readPosition_eq hsplit]
  cases startOf line head with
  | error fault => simp [Except.bind]
  | ok start => cases hp : Game.pushAll ms start <;> simp [Except.bind, Except.mapError, hp]

theorem readPosition_push {head ms : List String} {m line line' : String}
    (h : SetsUp head (ms ++ [m]) line) (h' : SetsUp head ms line') {g : Game} :
    readPosition line = .ok g ↔ ∃ g' mv, readPosition line' = .ok g' ∧
      g'.position.readMove m = .ok mv ∧ g = g'.push mv := by
  rw [readPosition_of_setsUp h]
  simp only [readPosition_of_setsUp h', Game.pushAll_append, Game.pushAll_singleton,
    startOf_ok_congr line line']
  constructor
  · rintro ⟨start, hstart, g', hpush, mv, hmv, rfl⟩
    exact ⟨g', mv, ⟨start, hstart, hpush⟩, hmv, rfl⟩
  · rintro ⟨g', mv, ⟨start, hstart, hpush⟩, hmv, rfl⟩
    exact ⟨start, hstart, g', hpush, mv, hmv, rfl⟩

/-! ### Games over a conversation -/

def lastSet? (lines : List String) : Option Game :=
  (heard lines).reverse.findSome? fun line => gameSet? (strip line)

theorem lastSet?_cons {line : String} (h : strip line ≠ "quit") (rest : List String) :
    lastSet? (line :: rest) = (lastSet? rest).or (gameSet? (strip line)) := by
  simp [lastSet?, heard, h, List.findSome?_append]

namespace State
variable {S C : Type} [Scalar S] [Timepiece C]

theorem game_of_receive {u u' : State S C} {line : String} {out : List String}
    (he : u.engine.checkEvery ≠ 0) (h : u.receive line = some (out, u')) :
    u'.engine = u.engine ∧ u'.game = (gameSet? (strip line)).getD u.game := by
  obtain ⟨hengine, hgame | ⟨hzero, -⟩⟩ := receive_moves h
  · exact ⟨hengine, hgame⟩
  · exact absurd hzero he

theorem game_of_converse {u : State S C} (he : u.engine.checkEvery ≠ 0) (lines : List String) :
    (u.converse lines).2.engine = u.engine ∧
      (u.converse lines).2.game = (lastSet? lines).getD u.game := by
  induction lines generalizing u with
  | nil => exact ⟨rfl, rfl⟩
  | cons line rest ih =>
    by_cases hq : strip line = "quit"
    · simp [converse, receive_of_quit hq, lastSet?, heard, hq]
    · obtain ⟨out, u', hu'⟩ := exists_receive hq u
      obtain ⟨hengine, hgame⟩ := game_of_receive he hu'
      obtain ⟨hengine', hgame'⟩ := ih (hengine ▸ he)
      simp only [converse, hu', lastSet?_cons hq]
      refine ⟨hengine'.trans hengine, hgame'.trans ?_⟩
      rw [hgame]
      cases lastSet? rest <;> simp

/-- A position command is answered by nothing and sets its game up, or it is refused and leaves the
current game. -/
theorem receive_of_position {line : String} (h : Request.of (strip line) = .position)
    (u : State S C) :
    (∃ g, gameSet? (strip line) = some g ∧ u.receive line = some ([], { u with game := g })) ∨
      gameSet? (strip line) = none ∧ ∃ fault j,
        u.receive line = some ([complaint fault], u.withJournal j) := by
  have hknown : Request.of (strip line) ≠ .unknown := by
    rw [h]
    decide
  have hreceive := u.receive_of_request hknown
  have hhandle : u.handle (strip line) = u.handlePosition (strip line) := by rw [handle, h]
  rw [hreceive]
  simp only [gameSet?, h]
  cases hread : readPosition (strip line) with
  | ok g =>
    refine .inl ⟨g, rfl, ?_⟩
    rw [respond, hhandle, handlePosition, hread]
  | error fault =>
    have hfailed : u.handle (strip line) = (.error fault, u) := by
      rw [hhandle, handlePosition, hread]
    obtain ⟨j, -, hj⟩ := respond_failed hfailed
    exact .inr ⟨rfl, fault, j, by rw [hj]⟩

/-- The current game is the one set up by the last new game or position command that was accepted,
and that of a new conversation if there was none. A search keeps it, whatever its outcome; a
position command is accepted exactly if nothing is answered; and one move more in it is one move
more that is pushed. -/
theorem game_of_last_setup {e : Engine} (he : e.checkEvery ≠ 0) (clock : C) (session : Session S)
    (lines : List String) :
    ((State.start e clock session).converse lines).2.game = (lastSet? lines).getD .initial ∧
      (∀ {u u' : State S C} {line : String} {out : List String}, u.engine = e →
        Request.of (strip line) = .go → u.receive line = some (out, u') → u'.game = u.game) ∧
      (∀ (u : State S C) {line : String}, Request.of (strip line) = .position →
        (∃ g, gameSet? (strip line) = some g ∧
          u.receive line = some ([], { u with game := g })) ∨
        gameSet? (strip line) = none ∧ ∃ fault j,
          u.receive line = some ([complaint fault], u.withJournal j)) ∧
      ∀ {head ms : List String} {m line line' : String}, SetsUp head (ms ++ [m]) line →
        SetsUp head ms line' → ∀ g, readPosition line = .ok g ↔
          ∃ g' mv, readPosition line' = .ok g' ∧ g'.position.readMove m = .ok mv ∧
            g = g'.push mv := by
  refine ⟨(game_of_converse he lines).2, fun hu hgo hreceive => ?_, fun u _ h =>
    receive_of_position h u, fun h h' _ => readPosition_push h h'⟩
  obtain ⟨-, hgame⟩ := game_of_receive (hu ▸ he) hreceive
  rw [hgame, gameSet?, hgo]
  rfl

theorem game_of_king_pawn :
    let lines := ["position startpos moves e2e4", "go depth 1 wtime 1000",
      "position startpos moves e2e4 e7e4", "go wtime"]
    let u := State.start .standard (⟨0, 1⟩ : NodeClock)
      (Session.fresh Constants.tuned .standard .silent)
    (u.converse lines).2.game = Game.initial.push ⟨12, 28, none⟩ ∧
      (readPosition "position startpos moves e2e4 e7e5").toOption =
        some ((Game.initial.push ⟨12, 28, none⟩).push ⟨52, 36, none⟩) := by
  intro lines u
  have h := game_of_last_setup (e := Engine.standard) (by decide) (⟨0, 1⟩ : NodeClock)
    (Session.fresh Constants.tuned .standard .silent) lines
  have hset : lastSet? lines = some (Game.initial.push ⟨12, 28, none⟩) := by decide +kernel
  have hone : readPosition "position startpos moves e2e4" =
      .ok (Game.initial.push ⟨12, 28, none⟩) := by decide +kernel
  have hmove : (Game.initial.push ⟨12, 28, none⟩).position.readMove "e7e5" =
      .ok ⟨52, 36, none⟩ := by decide +kernel
  have hbefore : SetsUp ["position", "startpos"] ["e2e4"] "position startpos moves e2e4" :=
    ⟨by decide, .inl (by decide +kernel)⟩
  have hafter : SetsUp ["position", "startpos"] (["e2e4"] ++ ["e7e5"])
      "position startpos moves e2e4 e7e5" := ⟨by decide, .inl (by decide +kernel)⟩
  have htwo := (h.2.2.2 hafter hbefore _).2 ⟨_, _, hone, hmove, rfl⟩
  refine ⟨?_, by rw [htwo]; rfl⟩
  rw [h.1, hset]
  rfl

end State
end Uci
end Zeitnot
