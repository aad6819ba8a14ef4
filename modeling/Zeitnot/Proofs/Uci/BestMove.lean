import Zeitnot.Proofs.Uci.Conversation
set_option autoImplicit false

namespace Zeitnot
open Chess Number

theorem Search.Progress.Settled.best_mem {P M : Type} {rules : Search.Rules P M} {root : P}
    {r : Search.Progress M} (h : r.Settled rules root) : r.best ∈ rules.moves root := by
  rcases Nat.eq_zero_or_pos r.depth with h0 | hpos
  · exact List.mem_of_mem_head? (h.first h0).1
  · obtain ⟨v, -, hbest⟩ := h.best hpos
    exact hbest.mem

theorem Engine.thinkBy_best {S : Type} [Scalar S] {e : Engine} {g : Game} {limits : Limits}
    {clock : Clock} {last : SearchRecord} {s : Session S} {move : Option Move}
    (h : (e.thinkBy g limits clock last s).move = .ok move) :
    (move = none ↔ g.legalMoves = []) ∧ ∀ m ∈ move, m ∈ g.legalMoves := by
  by_cases hg : g.legalMoves = []
  · obtain ⟨s₁, j, -, -, hsearch⟩ := thinkBy_ok h
    have hnone : Search.search chessRules (e.watch s₁ (s₁.limits.getD limits) clock)
        (e.goal s₁ (s₁.limits.getD limits) clock) g = none :=
      Search.search_eq_none_iff.2 (moves_chessRules_eq_nil.2 hg)
    rw [hnone] at hsearch
    obtain ⟨rfl, -⟩ := hsearch
    simp [hg]
  · obtain ⟨s₁, limits₁, r, hr, rfl, -⟩ := thinkBy_found hg h
    have hsettled :=
      Search.search_settled chessRules_decided (fun d m _ => moderate_moveValue g d m) hr
    refine ⟨by simp [hg], fun m hm => ?_⟩
    cases hm
    exact mem_moves_chessRules.1 hsettled.best_mem

namespace Uci
open Text

def IsComplaint (out : List String) : Prop := ∃ fault : Fault, out = [complaint fault]

def NamesMove (line : String) : Prop := "bestmove".toList <+: line.toList

instance : DecidablePred NamesMove := fun _ => inferInstanceAs (Decidable (_ <+: _))

/-- Answers whose last line, and no other, names a move: a legal one, or the null move exactly if
there is none. -/
def IsMoveOf (g : Game) (out : List String) : Prop :=
  ∃ info m, out = info ++ ["bestmove " ++ m] ∧ (∀ line ∈ info, ¬ NamesMove line) ∧
    (m = "0000" ↔ g.legalMoves = []) ∧ (g.legalMoves ≠ [] → ∃ mv ∈ g.legalMoves, m = mv.text)

theorem namesMove_append (t : String) : NamesMove ("bestmove " ++ t) := by
  simp only [NamesMove, String.toList_append]
  exact ⟨' ' :: t.toList, rfl⟩

theorem getElem?_append_of {s : String} {n : Nat} {c : Char} (h : s.toList[n]? = some c)
    (t : String) : (s ++ t).toList[n]? = some c := by
  obtain ⟨hn, -⟩ := List.getElem?_eq_some_iff.1 h
  rw [String.toList_append, List.getElem?_append_left hn, h]

theorem not_prefix_of_getElem? {w s : String} {n : Nat} {c d : Char} (hw : w.toList[n]? = some c)
    (hs : s.toList[n]? = some d) (hne : c ≠ d) : ¬ w.toList <+: s.toList := by
  rintro ⟨rest, hrest⟩
  obtain ⟨hn, -⟩ := List.getElem?_eq_some_iff.1 hw
  rw [← hrest, List.getElem?_append_left hn, hw] at hs
  exact hne (Option.some.inj hs)

theorem not_namesMove_of_info {line : String} (h : line.toList[0]? = some 'i') :
    ¬ NamesMove line :=
  not_prefix_of_getElem? (c := 'b') (by decide) h (by decide)

theorem not_namesMove_complaint (fault : Fault) : ¬ NamesMove (complaint fault) :=
  not_namesMove_of_info (getElem?_append_of (by decide) fault.message)

theorem getElem?_infoLine (record : SearchRecord) {n : Nat} {c : Char}
    (h : "info depth ".toList[n]? = some c) : (infoLine record).toList[n]? = some c :=
  getElem?_append_of (getElem?_append_of (getElem?_append_of h _) _) _

theorem getElem?_boundsText (a : Allocator) {n : Nat} {c : Char}
    (h : "info string optimum ".toList[n]? = some c) : (boundsText a).toList[n]? = some c :=
  getElem?_append_of (getElem?_append_of (getElem?_append_of h _) _) _

theorem not_isComplaint_of_isMoveOf {g : Game} {out : List String} (h : IsMoveOf g out) :
    ¬ IsComplaint out := by
  rintro ⟨fault, hout⟩
  obtain ⟨info, m, rfl, -⟩ := h
  have hlast := congrArg List.getLast? hout
  simp only [List.getLast?_append, List.getLast?_singleton, Option.some_or, Option.some.injEq]
    at hlast
  exact not_namesMove_complaint fault (hlast ▸ namesMove_append m)

theorem isMoveOf_bestLine {S : Type} {g : Game} (hg : g.position.RooksAtHome) {move : Option Move}
    (hmove : (move = none ↔ g.legalMoves = []) ∧ ∀ m ∈ move, m ∈ g.legalMoves) (s : Session S)
    (us : Side) (record : SearchRecord) :
    IsMoveOf g (boundsLine s us ++ [infoLine record, bestLine move]) := by
  refine ⟨boundsLine s us ++ [infoLine record], move.elim "0000" Move.text, ?_, ?_, ?_⟩
  · simp [bestLine]
  · intro line hline
    rcases List.mem_append.1 hline with hb | hi
    · obtain rfl := eq_boundsText_of_mem hb
      exact not_namesMove_of_info (getElem?_boundsText _ (by decide))
    · obtain rfl := List.mem_singleton.1 hi
      exact not_namesMove_of_info (getElem?_infoLine record (by decide))
  · cases move with
    | none =>
      have hnone : g.legalMoves = [] := hmove.1.1 rfl
      simp [hnone]
    | some m =>
      have hm : m ∈ g.legalMoves := hmove.2 m rfl
      have hne : g.legalMoves ≠ [] := List.ne_nil_of_mem hm
      have htext := Move.text_ne_zeros (Position.departs_of_mem_legalMoves hg hm).source_ne
      exact ⟨by simp [hne, htext], fun _ => ⟨m, hm, rfl⟩⟩

namespace State
variable {S C : Type} [Scalar S] [Timepiece C]

theorem respond_go_answers {command : String} (h : Request.of command = .go) {u : State S C}
    (hu : u.game.position.RooksAtHome) :
    IsComplaint (u.respond command).1 ∨ IsMoveOf u.game (u.respond command).1 := by
  rcases u.respond_go h with hfailed | ⟨limits, j, -, move, k, hmove, hrespond⟩
  · exact .inl hfailed
  · rw [hrespond]
    exact .inr (isMoveOf_bestLine hu (Engine.thinkBy_best hmove) _ _ _)

theorem rooksAtHome_of_converse (e : Engine) (clock : C) (session : Session S)
    (lines : List String) :
    ((State.start e clock session).converse lines).2.game.position.RooksAtHome :=
  have hstart : (State.start e clock session).game.position.RooksAtHome :=
    Position.rooksAtHome_initial
  converse_induction (fun _ _ _ _ hu hreceive => rooksAtHome_of_receive hu hreceive) hstart lines

/-- Every order to search that is heard is answered, either by a complaint or by a move: a legal one
on the current board, or the null move exactly if there is none. -/
theorem go_answered (e : Engine) (clock : C) (session : Session S) {lines : List String} {i : Nat}
    {line : String} (h : (heard lines)[i]? = some line) (hgo : (words line).head? = some "go") :
    ∃ out, ((State.start e clock session).converse lines).1[i]? = some out ∧
      Xor (IsComplaint out)
        (IsMoveOf ((State.start e clock session).converse (lines.take i)).2.game out) := by
  obtain ⟨out, hreceive, hout⟩ := converse_getElem? h (State.start e clock session)
  have hknown : Request.of (strip line) = .go := Request.of_go (head_prefix_strip hgo)
  rw [receive_of_request (by rw [hknown]; decide)] at hreceive
  have hanswer := respond_go_answers hknown
    (rooksAtHome_of_converse e clock session (lines.take i))
  rw [Option.some.inj hreceive] at hanswer
  refine ⟨out, hout, ?_⟩
  rcases hanswer with hfailed | hmove
  · exact .inl ⟨hfailed, fun hmove => not_isComplaint_of_isMoveOf hmove hfailed⟩
  · exact .inr ⟨hmove, not_isComplaint_of_isMoveOf hmove⟩

theorem go_answered_in_corner :
    let lines := ["position fen 8/8/8/8/3p4/3P4/2k5/K7 w - - 0 1", "go depth", "go nodes 1"]
    let u := State.start ⟨64, 4, 1⟩ (⟨0, 1⟩ : NodeClock)
      (Session.fresh Constants.tuned .standard .silent)
    (u.converse lines).1[2]? = some ["info depth 0 nodes 1", "bestmove a1a2"] ∧
      IsMoveOf (u.converse (lines.take 2)).2.game ["info depth 0 nodes 1", "bestmove a1a2"] := by
  intro lines u
  have hheard : (heard lines)[2]? = some "go nodes 1" := by decide +kernel
  obtain ⟨out, hout, hanswer⟩ := go_answered ⟨64, 4, 1⟩ (⟨0, 1⟩ : NodeClock)
    (Session.fresh Constants.tuned .standard .silent) hheard (by decide +kernel)
  have hlines : (u.converse lines).1[2]? = some ["info depth 0 nodes 1", "bestmove a1a2"] := by
    decide +kernel
  obtain rfl : out = _ := Option.some.inj (hout.symm.trans hlines)
  refine ⟨hlines, ?_⟩
  rcases hanswer with ⟨⟨fault, hfault⟩, -⟩ | ⟨hmove, -⟩
  · simp at hfault
  · exact hmove

end State
end Uci
end Zeitnot
