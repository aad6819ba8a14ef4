import Zeitnot.Proofs.Uci.BestMove
import Zeitnot.Proofs.Uci.CurrentGame
import Zeitnot.Proofs.Uci.Rejection
/-!
Lines whose first word is no command. Three of the commands are known by how a line starts, so that
a longer word that starts with one of them is taken for it; every other line is answered by one that
says that it is unknown, and nothing comes of it.
-/
set_option autoImplicit false

namespace Zeitnot.Uci
open Chess Number Text

def wholeLines : List String := ["uci", "isready", "ucinewgame", "quit"]

def openWords : List (String × Request) :=
  [("position", .position), ("go", .go), ("setoption", .setOption)]

def commandWords : List String := wholeLines ++ openWords.map (·.1)

def Begins (c w : String) : Prop := c.toList <+: w.toList

instance (c w : String) : Decidable (Begins c w) := inferInstanceAs (Decidable (_ <+: _))

def unknownLine (line : String) : String := s!"info string Unknown command: {line}"

/-! ### How a line is known by its first word -/

theorem strip_ne_of_head {line w c : String} (hw : (words line).head? = some w)
    (hc : (words c).head? = some c) (hne : w ≠ c) : strip line ≠ c := by
  rintro h
  rw [← words_strip, h, hc] at hw
  exact hne (Option.some.inj hw).symm

theorem isPrefixOf_strip {line w c : String} (hw : (words line).head? = some w)
    (hc : ∀ x ∈ c.toList, isBlank x = false) :
    c.toList.isPrefixOf (strip line).toList = decide (Begins c w) := by
  rw [Bool.eq_iff_iff, List.isPrefixOf_iff_prefix, decide_eq_true_iff, prefix_strip_iff hw hc]
  rfl

theorem isBlank_openWords {c : String × Request} (hc : c ∈ openWords) :
    ∀ x ∈ c.1.toList, isBlank x = false := by
  have hall : (openWords.all fun c => c.1.toList.all fun x => !isBlank x) = true := by decide
  intro x hx
  have hx' := List.all_eq_true.1 (List.all_eq_true.1 hall c hc) x hx
  simpa using hx'

theorem Request.of_strip {line w : String} (hw : (words line).head? = some w)
    (hnot : w ∉ wholeLines) :
    of (strip line) =
      ((openWords.find? fun c => decide (Begins c.1 w)).map (·.2)).getD .unknown := by
  have huci : strip line ≠ "uci" :=
    strip_ne_of_head hw (by decide +kernel) (by rintro rfl; simp [wholeLines] at hnot)
  have hready : strip line ≠ "isready" :=
    strip_ne_of_head hw (by decide +kernel) (by rintro rfl; simp [wholeLines] at hnot)
  have hnew : strip line ≠ "ucinewgame" :=
    strip_ne_of_head hw (by decide +kernel) (by rintro rfl; simp [wholeLines] at hnot)
  have hopen : ∀ c ∈ openWords,
      c.1.toList.isPrefixOf (strip line).toList = decide (Begins c.1 w) := fun c hc =>
    isPrefixOf_strip hw (isBlank_openWords hc)
  simp only [openWords, List.forall_mem_cons] at hopen
  obtain ⟨hposition, hgo, hset, -⟩ := hopen
  unfold of
  simp only [huci, hready, hnew, if_false, hposition, hgo, hset, openWords, List.find?_cons,
    List.find?_nil]
  cases decide (Begins "position" w) <;> cases decide (Begins "go" w) <;>
    cases decide (Begins "setoption" w) <;> rfl

theorem eq_of_begins {a b : String × Request} (ha : a ∈ openWords) (hb : b ∈ openWords)
    (h : Begins a.1 b.1) : a = b := by
  have hall : ∀ a ∈ openWords, ∀ b ∈ openWords, Begins a.1 b.1 → a = b := by decide
  exact hall a ha b hb h

/-- A word starts with at most one of the words that a line is known by. -/
theorem find?_openWords {c : String × Request} {w : String} (hc : c ∈ openWords)
    (h : Begins c.1 w) : (openWords.find? fun c => decide (Begins c.1 w)) = some c := by
  cases hfind : openWords.find? fun c => decide (Begins c.1 w) with
  | none =>
    have hnone := List.find?_eq_none.1 hfind c hc
    simp [h] at hnone
  | some d =>
    have hd : d ∈ openWords := List.mem_of_find?_eq_some hfind
    have hdw : Begins d.1 w := by simpa using List.find?_some hfind
    rcases List.prefix_or_prefix_of_prefix h hdw with hcd | hdc
    · rw [eq_of_begins hc hd hcd]
    · rw [eq_of_begins hd hc hdc]

theorem Request.of_strip_of_begins {line w : String} (hw : (words line).head? = some w)
    (hnot : w ∉ wholeLines) {c : String × Request} (hc : c ∈ openWords) (h : Begins c.1 w) :
    of (strip line) = c.2 := by
  rw [of_strip hw hnot, find?_openWords hc h]
  rfl

theorem Request.of_strip_of_not_begins {line w : String} (hw : (words line).head? = some w)
    (hnot : w ∉ wholeLines) (h : ∀ c ∈ openWords, ¬ Begins c.1 w) :
    of (strip line) = .unknown := by
  have hnone : (openWords.find? fun c => decide (Begins c.1 w)) = none :=
    List.find?_eq_none.2 fun c hc => by simpa using h c hc
  rw [of_strip hw hnot, hnone]
  rfl

/-! ### The first word is not read -/

/-- A fault without the line that it quotes. -/
def Fault.unquoted : Fault → Fault
  | .malformedOption _ => .malformedOption ""
  | .malformedPosition _ => .malformedPosition ""
  | fault => fault

theorem readLimits_congr {line line' : String} (h : (words line).tail = (words line').tail)
    (now : Int) : readLimits now line = readLimits now line' := by
  simp only [readLimits, List.drop_one, h]

theorem readOption_unquoted (line : String) : (readOption line).mapError Fault.unquoted =
    match (words line).tail with
    | "name" :: w :: ws =>
      let (name, value) := (splitAtWord? "value" (w :: ws)).getD (w :: ws, [])
      .ok (unwords name, unwords value)
    | _ => .error (.malformedOption "") := by
  unfold readOption
  cases words line with
  | nil => rfl
  | cons first rest =>
    dsimp only [List.tail_cons]
    split
    · rename_i heq
      cases heq
      rfl
    · rename_i hother
      split
      · exact absurd rfl (hother _ _ _)
      · rfl

theorem splitAtWord?_cons_of_ne {v w : String} (h : v ≠ w) (ws : List String) :
    splitAtWord? w (v :: ws) = (splitAtWord? w ws).map fun found => (v :: found.1, found.2) := by
  unfold splitAtWord?
  by_cases hws : ws.contains w <;> simp [h, Ne.symm h]

theorem startOf_unquoted (line first : String) (head : List String) :
    (startOf line (first :: head)).mapError Fault.unquoted =
      (startOf "" ("" :: head)).mapError Fault.unquoted := by
  unfold startOf
  rw [List.drop_succ_cons, List.drop_succ_cons]
  split <;> rfl

theorem readPosition_unquoted {line first : String} {rest : List String}
    (h : words line = first :: rest) (hfirst : first ≠ "moves") :
    (readPosition line).mapError Fault.unquoted =
      let found := (splitAtWord? "moves" rest).getD (rest, [])
      ((startOf "" ("" :: found.1)).mapError Fault.unquoted).bind fun g =>
        ((Game.pushAll found.2 g).mapError .move).mapError Fault.unquoted := by
  have hsplit : (splitAtWord? "moves" (words line)).getD (words line, []) =
      let found := (splitAtWord? "moves" rest).getD (rest, [])
      (first :: found.1, found.2) := by
    rw [h, splitAtWord?_cons_of_ne hfirst]
    cases splitAtWord? "moves" rest <;> rfl
  rw [readPosition_eq hsplit]
  dsimp only
  rw [← startOf_unquoted line first]
  cases startOf line (first :: ((splitAtWord? "moves" rest).getD (rest, [])).1) <;> rfl

namespace State
variable {S C : Type} [Scalar S] [Timepiece C]

/-- What a command does, but for the line that a fault quotes. -/
def effect (u : State S C) (command : String) : Reply S C :=
  ((u.handle command).1.mapError Fault.unquoted, (u.handle command).2)

theorem effect_of_position {command : String} (h : Request.of command = .position)
    (u : State S C) : u.effect command =
      match (readPosition command).mapError Fault.unquoted with
      | .error fault => (.error fault, u)
      | .ok game => (.ok [], { u with game }) := by
  unfold effect handle
  rw [h]
  dsimp only
  unfold handlePosition
  cases readPosition command <;> rfl

theorem effect_of_setOption {command : String} (h : Request.of command = .setOption)
    (u : State S C) : u.effect command =
      match (readOption command).mapError Fault.unquoted with
      | .error fault => (.error fault, u)
      | .ok (name, value) =>
        let (result, u) := u.onSession
          (Session.setOption name (.text value) >>= fun _ => tellSetting name)
        ((result.map fun _ => []).mapError Fault.unquoted, u) := by
  unfold effect handle
  rw [h]
  dsimp only
  rw [handleOption_eq]
  cases readOption command <;> rfl

theorem effect_of_go {command : String} (h : Request.of command = .go) (u : State S C) :
    u.effect command =
      match readLimits (Timepiece.reading u.clock) command with
      | .error fault => (.error (.go fault), u)
      | .ok limits => ((u.search limits).1.mapError Fault.unquoted, (u.search limits).2) := by
  unfold effect handle
  rw [h]
  dsimp only
  unfold handleGo
  cases readLimits (Timepiece.reading u.clock) command <;> rfl

/-- A line whose first word starts with one of the three commands does what this command does with
the rest of the line. -/
theorem effect_of_begins (u : State S C) {line line' w : String} {c : String × Request}
    {rest : List String} (hw : words line = w :: rest) (hnot : w ∉ wholeLines)
    (hc : c ∈ openWords) (h : Begins c.1 w) (hw' : words line' = c.1 :: rest) :
    u.effect (strip line) = u.effect (strip line') := by
  have hnot' : c.1 ∉ wholeLines := by
    have hall : ∀ c ∈ openWords, c.1 ∉ wholeLines := by decide
    exact hall c hc
  have hmoves : w ≠ "moves" ∧ c.1 ≠ "moves" := by
    have hall : ∀ c ∈ openWords, ¬ Begins c.1 "moves" := by decide
    refine ⟨?_, ?_⟩
    · rintro rfl
      exact hall c hc h
    · intro hcm
      exact hall c hc (hcm ▸ List.prefix_rfl)
  have hr : Request.of (strip line) = c.2 :=
    Request.of_strip_of_begins (by rw [hw]; rfl) hnot hc h
  have hr' : Request.of (strip line') = c.2 :=
    Request.of_strip_of_begins (by rw [hw']; rfl) hnot' hc List.prefix_rfl
  have hwords : words (strip line) = w :: rest := by rw [words_strip, hw]
  have hwords' : words (strip line') = c.1 :: rest := by rw [words_strip, hw']
  have htail : (words (strip line)).tail = (words (strip line')).tail := by
    rw [hwords, hwords']
    rfl
  simp only [openWords, List.mem_cons, List.not_mem_nil, or_false] at hc
  rcases hc with rfl | rfl | rfl
  · rw [effect_of_position hr, effect_of_position hr', readPosition_unquoted hwords hmoves.1,
      readPosition_unquoted hwords' hmoves.2]
  · rw [effect_of_go hr, effect_of_go hr', readLimits_congr htail]
  · rw [effect_of_setOption hr, effect_of_setOption hr', readOption_unquoted,
      readOption_unquoted, htail]

theorem request_ne_unknown {c : String × Request} (hc : c ∈ openWords) : c.2 ≠ .unknown := by
  have hall : ∀ c ∈ openWords, c.2 ≠ .unknown := by decide
  exact hall c hc

theorem receive_of_unknown {line w : String} (hw : (words line).head? = some w)
    (hnot : w ∉ wholeLines) (hr : Request.of (strip line) = .unknown) (u : State S C) :
    u.receive line = some ([unknownLine (strip line)], u) := by
  have hempty : (strip line).isEmpty = false := by
    rw [Bool.eq_false_iff]
    intro he
    rw [← words_strip, String.isEmpty_iff.1 he] at hw
    cases hw
  have hquit : strip line ≠ "quit" :=
    strip_ne_of_head hw (by decide +kernel) (by rintro rfl; simp [wholeLines] at hnot)
  have hhandle : u.handle (strip line) = (.ok [unknownLine (strip line)], u) := by
    unfold handle
    rw [hr]
    rfl
  unfold receive
  simp only [hempty, hquit, Bool.false_eq_true, if_false, respond, hhandle]

theorem receive_ne_unknownLine {line : String} {c : String × Request} (hc : c ∈ openWords)
    (hr : Request.of (strip line) = c.2) (u u' : State S C) (text : String) :
    u.receive line ≠ some ([unknownLine text], u') := by
  have hcomplaint (fault : Fault) : complaint fault ≠ unknownLine text := by
    intro h
    have hE : (complaint fault).toList[12]? = some 'E' := getElem?_append_of (by decide) _
    have hU : (unknownLine text).toList[12]? = some 'U' := getElem?_append_of (by decide) _
    rw [h, hU] at hE
    cases hE
  have hknown : Request.of (strip line) ≠ .unknown := hr ▸ request_ne_unknown hc
  have hset (h : Request.of (strip line) = .position ∨ Request.of (strip line) = .setOption) :
      u.receive line ≠ some ([unknownLine text], u') := by
    obtain ⟨v, hv⟩ | ⟨fault, hfault⟩ := accepted_or_refused h u
    · rw [hv]
      rintro ⟨⟩
    · obtain ⟨j, -, hj⟩ := respond_failed hfault.handle.1
      rw [receive_of_request hknown, hj]
      intro h
      exact hcomplaint fault (List.singleton_inj.1 (congrArg Prod.fst (Option.some.inj h)))
  simp only [openWords, List.mem_cons, List.not_mem_nil, or_false] at hc
  rcases hc with rfl | rfl | rfl
  · exact hset (.inl hr)
  · rw [receive_of_request hknown]
    intro h
    have hout : (u.respond (strip line)).1 = [unknownLine text] :=
      congrArg Prod.fst (Option.some.inj h)
    obtain ⟨fault, hfault⟩ | ⟨limits, j, -, move, k, -, hsent⟩ := respond_go hr u
    · rw [hfault] at hout
      exact hcomplaint fault (List.singleton_inj.1 hout)
    · rw [hsent] at hout
      have hlen := congrArg List.length hout
      simp at hlen
  · exact hset (.inr hr)

theorem moveNumber_search (u : State S C) (limits : Limits) :
    (u.search limits).2.moveNumber = u.moveNumber + 1 := by
  obtain ⟨j, -, hj⟩ := u.search_eq limits
  generalize u.engine.thinkBy u.game limits (Timepiece.shown u.clock) u.record
    { u.session with journal := j } = t at hj
  rw [hj]
  cases t.move with
  | error fault => rfl
  | ok move =>
    obtain ⟨k, hk⟩ := (u.after t).answer_eq u.game.position.turn move
    simp only [hk]
    rfl

theorem moveNumber_respond (u : State S C) (command : String) :
    (u.respond command).2.moveNumber = (u.handle command).2.moveNumber := by
  unfold respond
  split
  all_goals
    rename_i h
    rw [h]
  rfl

theorem receive_of_go (u : State S C) {line : String} {limits : Limits}
    (hr : Request.of (strip line) = .go)
    (hlimits : readLimits (Timepiece.reading u.clock) (strip line) = .ok limits) :
    ∃ out u', u.receive line = some (out, u') ∧ u'.moveNumber = u.moveNumber + 1 ∧
      ∀ text, out ≠ [unknownLine text] := by
  have hhandle : u.handle (strip line) = u.search limits := by
    rw [handle, hr]
    dsimp only
    rw [handleGo, hlimits]
  have hgo : ("go", Request.go) ∈ openWords := by decide
  have hnumber : (u.respond (strip line)).2.moveNumber = u.moveNumber + 1 := by
    rw [moveNumber_respond, hhandle, moveNumber_search]
  have hreceive : u.receive line = some (u.respond (strip line)) :=
    receive_of_request (hr ▸ by decide) u
  rcases hrespond : u.respond (strip line) with ⟨out, u'⟩
  rw [hrespond] at hreceive hnumber
  refine ⟨out, u', hreceive, hnumber, fun text hout => ?_⟩
  exact receive_ne_unknownLine hgo hr u u' text (by rw [hreceive, hout])

/-- A line whose first word is no command is answered by a line that says so, and changes nothing,
exactly if this word does not start with one of the three commands that are known by how a line
starts. Else the line does what this command does with the rest of the line. -/
theorem unknown_iff_begins_none (u : State S C) {line w : String} {rest : List String}
    (hw : words line = w :: rest) (hnot : w ∉ commandWords) :
    (u.receive line = some ([unknownLine (strip line)], u) ↔ ∀ c ∈ openWords, ¬ Begins c.1 w) ∧
      ∀ c ∈ openWords, Begins c.1 w →
        u.receive line = some (u.respond (strip line)) ∧
        ∀ line', words line' = c.1 :: rest → u.effect (strip line) = u.effect (strip line') := by
  have hwhole : w ∉ wholeLines := fun h => hnot (List.mem_append_left _ h)
  have hhead : (words line).head? = some w := by rw [hw]; rfl
  have hof {c : String × Request} (hc : c ∈ openWords) (hcw : Begins c.1 w) :
      Request.of (strip line) = c.2 := Request.of_strip_of_begins hhead hwhole hc hcw
  refine ⟨⟨?_, ?_⟩, ?_⟩
  · intro h c hc hcw
    exact receive_ne_unknownLine hc (hof hc hcw) u u _ h
  · intro h
    exact receive_of_unknown hhead hwhole (Request.of_strip_of_not_begins hhead hwhole h) u
  · intro c hc hcw
    refine ⟨?_, fun line' hw' => ?_⟩
    · exact receive_of_request (hof hc hcw ▸ request_ne_unknown hc) u
    · exact effect_of_begins u hw hwhole hc hcw hw'

theorem stop_unknown_at_start :
    let u := State.start .standard (⟨0, 1⟩ : NodeClock)
      (Session.fresh Constants.tuned .standard .attentive)
    u.receive " stop now" = some (["info string Unknown command: stop now"], u) := by
  intro u
  have hw : words " stop now" = "stop" :: ["now"] := by decide +kernel
  have hanswer : unknownLine (strip " stop now") = "info string Unknown command: stop now" := by
    decide +kernel
  obtain ⟨hunknown, -⟩ := unknown_iff_begins_none u hw (by decide)
  rw [← hanswer]
  exact hunknown.2 (by decide)

/-- A farewell starts a search. -/
theorem farewell_is_searched :
    let u := State.start .standard (⟨0, 1⟩ : NodeClock)
      (Session.fresh Constants.tuned .standard .attentive)
    words "goodbye" = ["goodbye"] ∧ "goodbye" ∉ commandWords ∧
      ∃ out u', u.receive "goodbye" = some (out, u') ∧ u'.moveNumber = u.moveNumber + 1 ∧
        out ≠ [unknownLine "goodbye"] := by
  intro u
  obtain ⟨limits, hlimits⟩ :
      ∃ limits, readLimits (Timepiece.reading u.clock) (strip "goodbye") = .ok limits :=
    Stateful.exists_of_isOk (by decide +kernel)
  obtain ⟨out, u', hreceive, hnumber, hout⟩ := u.receive_of_go (by decide +kernel) hlimits
  exact ⟨by decide +kernel, by decide, out, u', hreceive, hnumber, hout _⟩

end State
end Zeitnot.Uci
