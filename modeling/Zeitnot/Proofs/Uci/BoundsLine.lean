import Zeitnot.Proofs.Engine.TimeManagement
import Zeitnot.Proofs.Uci.BestMove
set_option autoImplicit false

namespace Zeitnot
open Chess Number

theorem Limits.engage_of_untimed {l : Limits} {us : Side} (h : l.time.get us = 0) (a : Allocator)
    (nodesPerMs : Int) : l.engage a us nodesPerMs = l :=
  if_neg fun hc => hc.1 h

namespace Session
variable {S : Type}

/-- A session that counts nodes and has none left. -/
def UsedUp (s : Session S) : Prop :=
  s.options.timeSettings.nodesPerMs ≠ 0 ∧ s.allocator.availableNodes = 0

def allocationFor [Scalar S] (s : Session S) (g : Game) (limits : Limits) :
    Except Fault (Allocation S) :=
  allocation s.constants s.options.timeSettings
    (limits.engage s.allocator g.position.turn s.options.timeSettings.nodesPerMs)
    g.position.turn g.position.ply s.adjust

theorem time_engage_eq_zero {s : Session S} {limits : Limits} {us : Side}
    (ht : limits.time.get us ≠ 0) :
    (limits.engage s.allocator us s.options.timeSettings.nodesPerMs).time.get us = 0 ↔
      s.UsedUp := by
  by_cases hr : s.options.timeSettings.nodesPerMs = 0
  · simp [Limits.engage, UsedUp, hr, ht]
  · have hseed := Allocator.availableNodes_seed_eq_zero
      (a := { s.allocator with startTime := limits.startTime, useNodes := true }) hr ht
    rw [Limits.engage, if_pos ⟨ht, hr⟩, Allocator.engage, if_pos ⟨ht, hr⟩]
    simp only [Limits.inNodes, PerSide.get_set, UsedUp, ne_eq, hseed, hr, not_false_eq_true,
      true_and]

end Session

namespace Uci
open Text

variable {S : Type} [Scalar S]

theorem boundsLine_of_thinkBy {e : Engine} {g : Game} {limits : Limits} {clock : Engine.Clock}
    {last : SearchRecord} {s : Session S} {move : Option Move}
    (h : (e.thinkBy g limits clock last s).move = .ok move) :
    let s' := (e.thinkBy g limits clock last s).session
    (limits.time.get g.position.turn = 0 → boundsLine s' g.position.turn = []) ∧
      (limits.time.get g.position.turn ≠ 0 →
        (∃ r, s.allocationFor g limits = .ok r ∧ s'.allocator.optimum = r.optimum ∧
          s'.allocator.maximum = r.maximum) ∧
        (s.UsedUp → boundsLine s' g.position.turn = []) ∧
        (¬ s.UsedUp → boundsLine s' g.position.turn = [boundsText s'.allocator])) := by
  obtain ⟨s₁, j, hstart, hsession, -⟩ := Engine.thinkBy_ok h
  obtain ⟨us, adjust', limits', a, j', hus, rfl, he⟩ := Session.start_ok hstart
  obtain rfl : g.position.turn = us := Option.some.inj hus
  have hlimits : limits' = limits.engage s.allocator g.position.turn
    s.options.timeSettings.nodesPerMs := he.limits
  intro s'
  have hs' : s'.limits = some limits' := by rw [show s' = _ from hsession]
  obtain ⟨hoptimum, hmaximum⟩ : s'.allocator.optimum = a.optimum ∧
      s'.allocator.maximum = a.maximum := by
    rw [show s' = _ from hsession]
    exact Session.settled_bounds _ _ _
  -- What is told is decided by the limits as they were engaged, not as they were given.
  rw [boundsLine_of_limits hs', hlimits]
  constructor
  · intro ht
    rw [Limits.engage_of_untimed ht, if_pos ht]
  · intro ht
    obtain ⟨r, hr, -, ha⟩ := he.timed ht
    obtain rfl : a = _ := ha
    rw [hlimits] at hr
    refine ⟨⟨r, hr, hoptimum, hmaximum⟩, fun hused => ?_, fun hleft => ?_⟩
    · rw [if_pos ((Session.time_engage_eq_zero ht).2 hused)]
    · rw [if_neg (mt (Session.time_engage_eq_zero ht).1 hleft)]

def TellsBounds (line : String) : Prop := "info string optimum".toList <+: line.toList

instance : DecidablePred TellsBounds := fun _ => inferInstanceAs (Decidable (_ <+: _))

theorem not_tellsBounds_infoLine (record : SearchRecord) : ¬ TellsBounds (infoLine record) :=
  not_prefix_of_getElem? (n := 5) (c := 's') (d := 'd') (by decide)
    (getElem?_infoLine record (by decide)) (by decide)

theorem not_tellsBounds_bestLine (move : Option Move) : ¬ TellsBounds (bestLine move) :=
  not_prefix_of_getElem? (n := 0) (c := 'i') (d := 'b') (by decide)
    (getElem?_append_of (by decide) _) (by decide)

variable {C : Type}

/-- What an order to search that was accepted under limits tells of bounds: those armed for the
search, once and first, if the side to move has a clock that is not counted in used up nodes, and
else none. -/
structure BoundsTold (u u' : State S C) (limits : Limits) (out : List String) : Prop where
  untimed : limits.time.get u.game.position.turn = 0 → ∀ line ∈ out, ¬ TellsBounds line
  armed : limits.time.get u.game.position.turn ≠ 0 →
    ∃ r, u.session.allocationFor u.game limits = .ok r ∧
      u'.session.allocator.optimum = r.optimum ∧ u'.session.allocator.maximum = r.maximum
  usedUp : limits.time.get u.game.position.turn ≠ 0 → u.session.UsedUp →
    ∀ line ∈ out, ¬ TellsBounds line
  told : limits.time.get u.game.position.turn ≠ 0 → ¬ u.session.UsedUp → ∃ info best,
    out = [boundsText u'.session.allocator, info, best] ∧ ¬ TellsBounds info ∧
      ¬ TellsBounds best ∧ NamesMove best

namespace State
variable [Timepiece C]

theorem respond_go_told {command : String} (h : Request.of command = .go) {u u' : State S C}
    {out : List String} (hout : u.respond command = (out, u'))
    (haccepted : ∃ line ∈ out, NamesMove line) :
    ∃ limits, readLimits (Timepiece.reading u.clock) command = .ok limits ∧
      BoundsTold u u' limits out := by
  rcases u.respond_go h with ⟨fault, hfault⟩ | ⟨limits, j, hlimits, move, k, hmove, hanswer⟩
  · obtain ⟨line, hline, hnames⟩ := haccepted
    rw [hout] at hfault
    obtain rfl : out = [complaint fault] := hfault
    obtain rfl := List.mem_singleton.1 hline
    exact absurd hnames (not_namesMove_complaint fault)
  · obtain ⟨huntimed, htimed⟩ := boundsLine_of_thinkBy hmove
    generalize u.engine.thinkBy u.game limits (Timepiece.shown u.clock) u.record
      { u.session with journal := j } = t at huntimed htimed hanswer
    obtain ⟨rfl, rfl⟩ := Prod.mk.inj (hout.symm.trans hanswer)
    have hsilent (hnone : boundsLine t.session u.game.position.turn = []) :
        ∀ line ∈ boundsLine t.session u.game.position.turn ++ [infoLine t.record, bestLine move],
          ¬ TellsBounds line := by
      rw [hnone, List.nil_append]
      intro line hline
      rcases List.mem_pair.1 hline with rfl | rfl
      · exact not_tellsBounds_infoLine _
      · exact not_tellsBounds_bestLine move
    refine ⟨limits, hlimits, fun ht => hsilent (huntimed ht), fun ht => (htimed ht).1,
      fun ht hused => hsilent ((htimed ht).2.1 hused), fun ht hleft => ?_⟩
    refine ⟨infoLine t.record, bestLine move, ?_, not_tellsBounds_infoLine _,
      not_tellsBounds_bestLine move, namesMove_append _⟩
    rw [(htimed ht).2.2 hleft]
    rfl

/-- An order to search that is answered by a move tells the bounds armed for the search exactly if
its limits give the side to move a clock that is not counted in used up nodes. -/
theorem bounds_told_unless_used_up (u : State S C) {lines : List String} {i : Nat} {line : String}
    {out : List String} (h : (heard lines)[i]? = some line)
    (hgo : (words line).head? = some "go") (hout : (u.converse lines).1[i]? = some out)
    (haccepted : ∃ l ∈ out, NamesMove l) :
    let before := (u.converse (lines.take i)).2
    ∃ limits, readLimits (Timepiece.reading before.clock) (strip line) = .ok limits ∧
      BoundsTold before (u.converse (lines.take (i + 1))).2 limits out := by
  obtain ⟨out', hreceive, hout'⟩ := converse_getElem? h u
  obtain rfl : out = out' := Option.some.inj (hout.symm.trans hout')
  have hknown : Request.of (strip line) = .go := Request.of_go (head_prefix_strip hgo)
  rw [receive_of_request (by rw [hknown]; decide)] at hreceive
  exact respond_go_told hknown (Option.some.inj hreceive) haccepted

/-- Two searches of a cornered king, at one node a millisecond and with one millisecond on either
clock. The first one uses up the node budget. -/
def twoCornered : List String :=
  ["setoption name nodestime value 1", "position fen 8/8/8/8/3p4/3P4/2k5/K7 w - - 0 1",
    "go wtime 1 btime 1 movestogo 1", "go wtime 1 btime 1 movestogo 1"]

def cornerEngine : State Float :=
  .start ⟨64, 2, 1⟩ ⟨1000000000, 0⟩ (.fresh Constants.tuned .standard .silent)

theorem bounds_told_at_first :
    let after := (cornerEngine.converse (twoCornered.take 3)).2
    ¬ (cornerEngine.converse (twoCornered.take 2)).2.session.UsedUp ∧ ∃ info best,
      (cornerEngine.converse twoCornered).1[2]? =
        some [boundsText after.session.allocator, info, best] := by
  intro after
  have hfresh : ¬ (cornerEngine.converse (twoCornered.take 2)).2.session.UsedUp := by
    have hunset : (cornerEngine.converse (twoCornered.take 2)).2.session.allocator.availableNodes =
        -1 := by decide +kernel
    rintro ⟨-, hzero⟩
    rw [hunset] at hzero
    cases hzero
  have hheard : (heard twoCornered)[2]? = some "go wtime 1 btime 1 movestogo 1" := by
    decide +kernel
  have hout : (cornerEngine.converse twoCornered).1[2]? =
      some ["info string optimum 1 maximum 1", "info depth 1 nodes 1", "bestmove a1a2"] := by
    decide +kernel
  obtain ⟨limits, hlimits, htold⟩ := bounds_told_unless_used_up cornerEngine hheard
    (by decide +kernel) hout ⟨"bestmove a1a2", by decide, by decide⟩
  have hturn : (cornerEngine.converse (twoCornered.take 2)).2.game.position.turn = .white := by
    decide +kernel
  have hclock : (readLimits (Timepiece.reading (cornerEngine.converse (twoCornered.take 2)).2.clock)
      (strip "go wtime 1 btime 1 movestogo 1")).toOption.map (·.time.get .white) = some 1 := by
    decide +kernel
  rw [hlimits] at hclock
  have hone : limits.time.get .white = 1 := Option.some.inj hclock
  obtain ⟨info, best, hlines, -⟩ := htold.told (by rw [hturn, hone]; decide) hfresh
  exact ⟨hfresh, info, best, by rw [hout, hlines]⟩

/-- The second is not, although its own clock is not zero. -/
theorem bounds_untold_at_second :
    (heard twoCornered)[3]? = some "go wtime 1 btime 1 movestogo 1" ∧
      (cornerEngine.converse (twoCornered.take 3)).2.game.position.turn = .white ∧
      (readLimits 1000 "go wtime 1 btime 1 movestogo 1").toOption.map (fun l => l.time.white) =
        some 1 ∧
      ∃ out, (cornerEngine.converse twoCornered).1[3]? = some out ∧
        (∃ l ∈ out, NamesMove l) ∧ ∀ l ∈ out, ¬ TellsBounds l := by
  refine ⟨by decide +kernel, by decide +kernel, by decide +kernel,
    ["info depth 1 nodes 1", "bestmove a1a2"], by decide +kernel, ?_, ?_⟩
  · exact ⟨"bestmove a1a2", by decide, by decide⟩
  · decide

end State
end Uci
end Zeitnot
