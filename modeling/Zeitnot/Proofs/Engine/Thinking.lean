import Zeitnot.Engine
import Zeitnot.Proofs.Search.Walk
import Zeitnot.Proofs.Session.Action
/-!
What a search under limits comes to: it starts the session, searches, and finishes the session with
the nodes it has searched. What it reports of itself has no part in any of this.
-/
set_option autoImplicit false

namespace Zeitnot

/-- A game in which White has one move, after which a pawn falls. -/
def Chess.Game.cornered : Chess.Game := .start
  { board := (((Board.empty.put ⟨0, by decide⟩ (some ⟨.white, .king, false⟩)).put ⟨19, by decide⟩
      (some ⟨.white, .pawn, false⟩)).put ⟨10, by decide⟩ (some ⟨.black, .king, false⟩)).put
      ⟨27, by decide⟩ (some ⟨.black, .pawn, false⟩)
    turn := .white
    rights := .both .none
    enPassant := none
    halfmoves := 0
    fullmove := 1 }

namespace Engine
open Chess Number Search Stateful

variable {S : Type} [Scalar S]

theorem run_wrapUp (us : Side) (now : Int) (nodes : Nat) (s : Session S) :
    ∃ result j, (wrapUp us now nodes).run.run s =
        (result, { s with allocator := s.settled nodes us, journal := j }) ∧
      (s.journal.quiet = true → result = .ok ()) := by
  obtain ⟨j, hj, hquiet⟩ := Session.run_finish nodes us s
  simp only [wrapUp]
  rw [run_bind, hj]
  simp only [run_get_bind]
  generalize hs : ({ s with allocator := s.settled nodes us, journal := j } : Session S) = s₁
  have ht := Session.telling_report (.searchCompleted (S := S) (s₁.elapsedTime now) nodes)
  obtain ⟨j', hj'⟩ := ht.journal s₁
  refine ⟨_, j', Prod.ext rfl ?_, fun hq => ?_⟩
  · rw [hj', ← hs]
  · obtain ⟨a, ha⟩ := ht.quiet s₁ (by rw [← hs]; exact hquiet.trans hq)
    rw [ha]

theorem conclude_ok {g : Game} {clock : Clock} {r : Search.Progress Move} {s s' : Session S}
    {move : Option Move} (h : (conclude g clock r).run.run s = (.ok move, s')) :
    r.fault = none ∧ move = some r.best ∧
      ∃ j, s' = { s with allocator := s.settled r.nodes g.position.turn, journal := j } := by
  unfold conclude at h
  rw [run_get_bind] at h
  obtain ⟨_, s₁, htell, h⟩ := run_bind_ok h
  obtain ⟨j, hj⟩ := (Session.telling_reports (eventOf s clock g) r.steps).journal s
  rw [htell] at hj
  obtain rfl : s₁ = { s with journal := j } := hj
  cases hf : r.fault with
  | some fault => rw [hf] at h; cases h
  | none =>
    simp only [hf] at h
    obtain ⟨_, s₂, hwrap, h⟩ := run_bind_ok h
    obtain ⟨result, j', hj', -⟩ := run_wrapUp g.position.turn (clock .ending r.nodes) r.nodes
      { s with journal := j }
    rw [hj'] at hwrap
    cases hwrap
    cases h
    exact ⟨rfl, rfl, j', rfl⟩

theorem conclude_of_quiet {g : Game} {clock : Clock} {r : Search.Progress Move} {s : Session S}
    (hq : s.journal.quiet = true) (h : r.fault = none) :
    ((conclude g clock r).run.run s).1 = .ok (some r.best) := by
  unfold conclude
  rw [run_get_bind, run_bind]
  obtain ⟨_, htell⟩ := (Session.telling_reports (eventOf s clock g) r.steps).quiet s hq
  rw [htell]
  simp only [h]
  obtain ⟨result, j, hj, hok⟩ := run_wrapUp g.position.turn (clock .ending r.nodes) r.nodes s
  rw [run_bind, hj, hok hq]
  rfl

theorem searchOn_chess (watch : Watch) (goal : Goal) (g : Game) : ∃ game,
    searchOn chessRules Game.pop watch goal g = (search chessRules watch goal g, game) :=
  ⟨_, Prod.ext (searchOn_progress Game.pop_push g) rfl⟩

theorem deepenOn_chess (watch : Watch) (goal : Goal) (remaining : Nat) (r : Search.Progress Move)
    (g : Game) : (deepenOn chessRules Game.pop watch goal remaining r g).1 =
      deepen chessRules watch goal g remaining r :=
  (deepenOn_follows Game.pop_push g remaining r).1

/-- A search gives the board back as it was. If the clock cannot be looked at, the first move that
is tried may be left on it. -/
theorem searchOn_board (watch : Watch) (goal : Goal) (g : Game) :
    (searchOn chessRules Game.pop watch goal g).2 = g ∨ watch.every = 0 ∧
      ∃ m ∈ chessRules.moves g, (searchOn chessRules Game.pop watch goal g).2 = g.push m := by
  by_cases hw : watch.every = 0
  · have hleft : (searchOn chessRules Game.pop watch goal g).2 = g ∨
        ∃ m ∈ chessRules.moves g, (searchOn chessRules Game.pop watch goal g).2 = g.push m :=
      searchOn_leaves hw g
    exact hleft.imp_right fun h => ⟨hw, h⟩
  · exact .inl (searchOn_restores Game.pop_push hw g)

theorem thinkBy_game (e : Engine) (g : Game) (limits : Limits) (clock : Clock) (last : SearchRecord)
    (s : Session S) :
    (e.thinkBy g limits clock last s).game = g ∨ e.checkEvery = 0 ∧
      ∃ m ∈ chessRules.moves g, (e.thinkBy g limits clock last s).game = g.push m := by
  unfold thinkBy
  rcases hs : (Session.start limits (.position g.position.ply g.position.turn) none).run.run s with
    ⟨fault | _, s₁⟩
  · simp only [hs, true_or]
  · have hboard := searchOn_board (e.watch s₁ (s₁.limits.getD limits) clock)
      (e.goal s₁ (s₁.limits.getD limits) clock) g
    simp only [hs]
    rcases hr : searchOn chessRules Game.pop (e.watch s₁ (s₁.limits.getD limits) clock)
        (e.goal s₁ (s₁.limits.getD limits) clock) g with ⟨_ | r, game⟩ <;>
      rw [hr] at hboard <;> exact hboard

/-- A search that comes back: the session has been started for the side to move, and charged with
the nodes that are on record. -/
theorem thinkBy_ok {e : Engine} {g : Game} {limits : Limits} {clock : Clock} {last : SearchRecord}
    {s : Session S} {move : Option Move}
    (h : (e.thinkBy g limits clock last s).move = .ok move) :
    ∃ s₁ j, (Session.start limits (.position g.position.ply g.position.turn) none).run.run s =
        (.ok (), s₁) ∧
      (e.thinkBy g limits clock last s).session = { s₁ with
        allocator := s₁.settled (e.thinkBy g limits clock last s).record.nodes g.position.turn
        journal := j } ∧
      match search chessRules (e.watch s₁ (s₁.limits.getD limits) clock)
        (e.goal s₁ (s₁.limits.getD limits) clock) g with
      | none => move = none ∧ (e.thinkBy g limits clock last s).record = .none
      | some r => r.fault = none ∧ move = some r.best ∧
        (e.thinkBy g limits clock last s).record = ⟨r.value, r.depth, r.nodes, r.interrupted⟩ := by
  unfold thinkBy at h ⊢
  rcases hs : (Session.start limits (.position g.position.ply g.position.turn) none).run.run s with
    ⟨fault | _, s₁⟩
  · simp only [hs] at h
    cases h
  · obtain ⟨game, hgame⟩ := searchOn_chess (e.watch s₁ (s₁.limits.getD limits) clock)
      (e.goal s₁ (s₁.limits.getD limits) clock) g
    simp only [hs, hgame] at h ⊢
    cases hr : search chessRules (e.watch s₁ (s₁.limits.getD limits) clock)
      (e.goal s₁ (s₁.limits.getD limits) clock) g with
    | none =>
      simp only [hr] at h ⊢
      obtain ⟨j, hj, -⟩ := Session.run_finish 0 g.position.turn s₁
      rw [hj] at h ⊢
      cases h
      exact ⟨s₁, j, rfl, rfl, by simp [hr]⟩
    | some r =>
      simp only [hr] at h ⊢
      rcases hc : (conclude g clock r).run.run s₁ with ⟨result, s₂⟩
      simp only [hc] at h ⊢
      subst h
      obtain ⟨hfault, hmove, j, rfl⟩ := conclude_ok hc
      exact ⟨s₁, j, rfl, rfl, by simp [hr, hfault, hmove]⟩

theorem thinkBy_record (e : Engine) {g : Game} {limits : Limits} (clock : Clock)
    (last : SearchRecord) {s s₁ : Session S}
    (h : (Session.start limits (.position g.position.ply g.position.turn) none).run.run s =
      (.ok (), s₁)) :
    (e.thinkBy g limits clock last s).record =
      match search chessRules (e.watch s₁ (s₁.limits.getD limits) clock)
        (e.goal s₁ (s₁.limits.getD limits) clock) g with
      | none => .none
      | some r => ⟨r.value, r.depth, r.nodes, r.interrupted⟩ := by
  obtain ⟨game, hgame⟩ := searchOn_chess (e.watch s₁ (s₁.limits.getD limits) clock)
    (e.goal s₁ (s₁.limits.getD limits) clock) g
  unfold thinkBy
  simp only [h, hgame]
  cases search chessRules (e.watch s₁ (s₁.limits.getD limits) clock)
    (e.goal s₁ (s₁.limits.getD limits) clock) g <;> rfl

theorem thinkBy_of_started {e : Engine} {g : Game} {limits : Limits} {clock : Clock}
    (last : SearchRecord) {s s₁ : Session S} {r : Search.Progress Move}
    (h : (Session.start limits (.position g.position.ply g.position.turn) none).run.run s =
      (.ok (), s₁))
    (hr : search chessRules (e.watch s₁ (s₁.limits.getD limits) clock)
      (e.goal s₁ (s₁.limits.getD limits) clock) g = some r) :
    (e.thinkBy g limits clock last s).record = ⟨r.value, r.depth, r.nodes, r.interrupted⟩ ∧
      (s₁.journal.quiet = true → r.fault = none →
        (e.thinkBy g limits clock last s).move = .ok (some r.best)) := by
  obtain ⟨game, hgame⟩ := searchOn_chess (e.watch s₁ (s₁.limits.getD limits) clock)
    (e.goal s₁ (s₁.limits.getD limits) clock) g
  unfold thinkBy
  simp only [h, hgame, hr]
  exact ⟨rfl, fun hq hfault => conclude_of_quiet hq hfault⟩

end Engine
end Zeitnot
