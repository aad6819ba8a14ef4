import Zeitnot.Proofs.Engine.ChessRules
import Zeitnot.Proofs.Engine.Thinking
import Zeitnot.Proofs.Search.Deepening
set_option autoImplicit false

namespace Zeitnot
open Chess Number Search Stateful

def Limits.toDepth (depth : Nat) (start : Int) : Limits := { unlimited start with depth }

@[simp] theorem Limits.depth_toDepth (depth : Nat) (start : Int) :
    (toDepth depth start).depth = depth := rfl

namespace Engine

section
variable {S : Type} {s : Session S} {depth : Nat} {start : Int}

theorem hasClock_of_toDepth (h : s.limits = some (.toDepth depth start)) :
    s.hasClock = false := by rw [Session.hasClock, h]; rfl

theorem watch_toDepth_patient (h : s.limits = some (.toDepth depth start)) {e : Engine}
    (he : 1 ≤ e.checkEvery) (clock : Clock) : (e.watch s (.toDepth depth start) clock).Patient := by
  have hclock := hasClock_of_toDepth h
  refine fun m => Watch.stopsAt_of_not_expired (by simp only [watch]; omega) ?_
  simp [watch, outOfTime, Limits.toDepth, Limits.unlimited, Session.shouldStop, hclock]

theorem goal_toDepth_satisfied (h : s.limits = some (.toDepth depth start)) (e : Engine)
    (clock : Clock) (n : Nat) : (e.goal s (.toDepth depth start) clock).satisfied n = false := by
  simp [goal, optimumReached, hasClock_of_toDepth h]

theorem goal_toDepth_depthLimit (e : Engine) (clock : Clock) (hpos : 0 < depth)
    (hmax : (depth : Int) ≤ e.maxDepth) :
    (e.goal s (.toDepth depth start) clock).depthLimit = depth := by
  have hne : (Limits.toDepth depth start).depth ≠ 0 := by rw [Limits.depth_toDepth]; omega
  simp only [goal, depthLimit, if_pos hne]
  exact min_eq_left hmax

end

variable {S : Type} [Scalar S]

/-- A search without a limit but its depth comes to that depth, if another search of the game
has come to it, and finds the same. -/
theorem thinkBy_toDepth {e e' : Engine} {g : Game} {limits : Limits} {clock clock' : Clock}
    {s₁ s' : Session S} {last' : SearchRecord} {start : Int} {r : Search.Progress Move}
    (hr : search chessRules (e.watch s₁ limits clock) (e.goal s₁ limits clock) g = some r)
    (hpos : 0 < r.depth) (hmax : (r.depth : Int) ≤ e'.maxDepth) (he : e'.maxDepth ≤ e.maxDepth)
    (hf : 1 ≤ e'.checkEvery) :
    (e'.thinkBy g (.toDepth r.depth start) clock' last' s').record.depth = r.depth ∧
      (e'.thinkBy g (.toDepth r.depth start) clock' last' s').record.value = r.value ∧
      (s'.journal.quiet = true →
        (e'.thinkBy g (.toDepth r.depth start) clock' last' s').move = .ok (some r.best)) := by
  have hturn : (none <|> (Root.position g.position.ply g.position.turn).turn?) =
      some g.position.turn := rfl
  obtain ⟨j, hstart, hquiet⟩ := Session.start_untimed (.toDepth r.depth start)
    (.position g.position.ply g.position.turn) hturn (by cases g.position.turn <;> rfl) s'
  generalize hs : ({ s' with
    allocator := { s'.allocator with startTime := (Limits.toDepth r.depth start).startTime
                                     useNodes := false }
    limits := some (.toDepth r.depth start)
    journal := j } : Session S) = s₂ at hstart
  have hlimits : s₂.limits = some (.toDepth r.depth start) := by rw [← hs]
  have hgoal : (e'.goal s₂ (.toDepth r.depth start) clock').maxDepth ≤
      (e.goal s₁ limits clock).maxDepth := he
  obtain ⟨r', hr', hsame, hfault⟩ := search_agrees (watch_toDepth_patient hlimits hf clock') hgoal
    (goal_toDepth_satisfied hlimits e' clock')
    (goal_toDepth_depthLimit e' clock' hpos hmax) hr
  have hlimits' : s₂.limits.getD (.toDepth r.depth start) = .toDepth r.depth start := by
    rw [hlimits]; rfl
  rw [← hlimits'] at hr'
  obtain ⟨hrecord, hmove⟩ := thinkBy_of_started last' hstart hr'
  rw [hrecord]
  refine ⟨hsame.depth, hsame.value, fun hq => ?_⟩
  rw [hmove (by rw [← hs]; simpa [hquiet hq] using hq) hfault, hsame.best]

theorem thinkBy_found {e : Engine} {g : Game} {limits : Limits} {clock : Clock}
    {last : SearchRecord} {s : Session S} {move : Option Move} (hg : g.legalMoves ≠ [])
    (h : (e.thinkBy g limits clock last s).move = .ok move) :
    ∃ (s₁ : Session S) (limits₁ : Limits) (r : Search.Progress Move),
      search chessRules (e.watch s₁ limits₁ clock) (e.goal s₁ limits₁ clock) g = some r ∧
      move = some r.best ∧
      (e.thinkBy g limits clock last s).record = ⟨r.value, r.depth, r.nodes, r.interrupted⟩ := by
  obtain ⟨s₁, j, -, -, hsearch⟩ := thinkBy_ok h
  refine ⟨s₁, s₁.limits.getD limits, ?_⟩
  cases hr : search chessRules (e.watch s₁ (s₁.limits.getD limits) clock)
    (e.goal s₁ (s₁.limits.getD limits) clock) g with
  | none => exact absurd (search_eq_none_iff.1 hr) (mt moves_chessRules_eq_nil.1 hg)
  | some r =>
    simp only [hr] at hsearch
    exact ⟨r, rfl, hsearch.2⟩

/-- The answer of a search depends on the game and on the depth that was completed alone: it is the
answer of any other search, by any engine, that has completed the same depth. Without one it is the
first move that is tried; else it is a best move at that depth with its value, and the answer of a
search which has no limit but the depth, if the engine goes so deep. -/
theorem answer_of_completed_depth {e : Engine} {g : Game} {limits : Limits} {clock : Clock}
    {last : SearchRecord} {s : Session S} {move : Option Move} (hg : g.legalMoves ≠ [])
    (h : (e.thinkBy g limits clock last s).move = .ok move) :
    let record := (e.thinkBy g limits clock last s).record
    ∃ m, move = some m ∧
      (record.depth = 0 → (g.position.order g.legalMoves).head? = some m ∧ record.value = none) ∧
      (0 < record.depth → m ∈ g.legalMoves ∧
        record.value = some (rootValue chessRules g record.depth) ∧
        moveValue chessRules g record.depth m = rootValue chessRules g record.depth) ∧
      (∀ {e' : Engine} {limits' : Limits} {clock' : Clock} {last' : SearchRecord} {s' : Session S}
        {move' : Option Move}, (e'.thinkBy g limits' clock' last' s').move = .ok move' →
        (e'.thinkBy g limits' clock' last' s').record.depth = record.depth →
        move' = some m ∧ (e'.thinkBy g limits' clock' last' s').record.value = record.value) ∧
      (0 < record.depth →
        ∀ {e' : Engine} {clock' : Clock} {last' : SearchRecord} {s' : Session S} {start : Int},
        (record.depth : Int) ≤ e'.maxDepth → e'.maxDepth ≤ e.maxDepth → 1 ≤ e'.checkEvery →
        let other := e'.thinkBy g (.toDepth record.depth start) clock' last' s'
        other.record.depth = record.depth ∧ other.record.value = record.value ∧
          (s'.journal.quiet = true → other.move = .ok (some m))) := by
  obtain ⟨s₁, limits₁, r, hr, hmove, hrecord⟩ := thinkBy_found hg h
  have hsettled := search_settled chessRules_decided (fun d m _ => moderate_moveValue g d m) hr
  simp only [hrecord]
  refine ⟨r.best, hmove, hsettled.first, fun hpos => ?_, ?_, fun hpos => ?_⟩
  · obtain ⟨v, hvalue, hbest⟩ := hsettled.best hpos
    have hroot : rootValue chessRules g r.depth = v := hbest.value_eq
    rw [hroot]
    exact ⟨mem_moves_chessRules.1 hbest.mem, hvalue, hbest.score_eq⟩
  · intro e' limits' clock' last' s' move' h' hdepth
    obtain ⟨s₂, limits₂, r', hr', hmove', hrecord'⟩ := thinkBy_found hg h'
    rw [hrecord'] at hdepth ⊢
    obtain ⟨hbest, hvalue⟩ := search_eq_of_depth_eq hr hr' hdepth
    exact ⟨by rw [hmove', hbest], hvalue⟩
  · intro e' clock' last' s' start hmax he hf
    exact thinkBy_toDepth hr hpos hmax he hf

theorem answer_of_first_depth :
    let e : Engine := ⟨64, 4, 1⟩
    let limits : Limits := { Limits.unlimited 1000 with nodes := 3 }
    let s := Session.fresh Constants.tuned .standard .silent
    ∃ m, (e.thinkBy .cornered limits (fun _ _ => 1000) .none s).move = .ok (some m) ∧
      (e.thinkBy .cornered limits (fun _ _ => 1000) .none s).record.interrupted = true ∧
      m ∈ Game.cornered.legalMoves ∧
      (e.thinkBy .cornered limits (fun _ _ => 1000) .none s).record.value =
        some (rootValue chessRules .cornered 1) := by
  intro e limits s
  have hok : (e.thinkBy .cornered limits (fun _ _ => 1000) .none s).move.isOk = true := by
    decide +kernel
  have hdepth : (e.thinkBy .cornered limits (fun _ _ => 1000) .none s).record.depth = 1 := by
    decide +kernel
  have hcut : (e.thinkBy .cornered limits (fun _ _ => 1000) .none s).record.interrupted = true := by
    decide +kernel
  obtain ⟨move, hmove⟩ := exists_of_isOk hok
  obtain ⟨m, hm, -, hbest, -⟩ := answer_of_completed_depth (by decide +kernel) hmove
  rw [hdepth] at hbest
  obtain ⟨hlegal, hvalue, -⟩ := hbest Nat.one_pos
  exact ⟨m, by rw [hmove, hm], hcut, hlegal, hvalue⟩

/-- An engine that goes deeper without limits than with a limit on the depth: the search to the
depth that it has completed stops before it, at another value. -/
theorem answer_beyond_max_depth :
    let e : Engine := ⟨1, 2, 1024⟩
    let s := Session.fresh Constants.tuned .standard .silent
    let untimed := e.thinkBy .cornered (.unlimited 1000) (fun _ _ => 1000) .none s
    let other := e.thinkBy .cornered (.toDepth untimed.record.depth 1000) (fun _ _ => 1000)
      untimed.record untimed.session
    untimed.move.isOk = true ∧ other.move.isOk = true ∧ 0 < untimed.record.depth ∧
      other.record.value ≠ untimed.record.value := by
  decide +kernel

end Engine
end Zeitnot
