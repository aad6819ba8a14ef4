import Zeitnot.Engine.Setup
import Zeitnot.Proofs.Engine.Likeness
import Zeitnot.Proofs.Number.Quotient
import Zeitnot.Proofs.Session.Telling
/-!
What the journal has to do with a game: nothing. Whatever is asked of a session and of the engines
that search with it, any two journals see the same answers, moves, limits and games and leave the
same session and records, as long as the clocks and the nodes are numbers that a quotient can be
made of.
-/
set_option autoImplicit false

namespace Zeitnot
open Chess Number Search Stateful

def SpeedTellable (S : Type) [Scalar S] (nodes : Nat) : Prop :=
  ∀ elapsed, ∃ text, speedText S elapsed nodes = .ok text

variable {S : Type} [Scalar S]

theorem Event.tellable_searchCompleted {nodes : Nat} (h : SpeedTellable S nodes) (elapsed : Int) :
    (searchCompleted (S := S) elapsed nodes).Tellable := by
  obtain ⟨text, htext⟩ := h elapsed
  simp only [Event.Tellable, Event.lines, htext]
  exact ⟨_, rfl⟩

namespace Engine
open Session

theorem tellable_eventOf (s : Session S) (clock : Clock) (g : Game) (step : Step Move) :
    (eventOf s clock g step).Tellable := by
  cases step <;> exact ⟨_, rfl⟩

theorem agree_wrapUp (us : Side) (now : Int) {nodes : Nat} (h : SpeedTellable S nodes) :
    Respects Agree (wrapUp (S := S) us now nodes) := by
  refine (agree_finish nodes us).bind fun _ => ?_
  rintro s _ ⟨j, rfl⟩
  exact agree_report (Event.tellable_searchCompleted h _) _ _ ⟨j, rfl⟩

theorem agree_conclude (g : Game) (clock : Clock) {r : Search.Progress Move}
    (h : SpeedTellable S r.nodes) : Respects Agree (conclude (S := S) g clock r) := by
  rintro s _ ⟨j, rfl⟩
  refine (respects_reports (eventOf s clock g)
    (fun step => agree_report (tellable_eventOf s clock g step)) r.steps).bind (fun _ => ?_)
    s _ ⟨j, rfl⟩
  cases r.fault with
  | some fault => exact fun s t h => ⟨rfl, h⟩
  | none =>
    exact (agree_wrapUp g.position.turn (clock .ending r.nodes) h).bind fun _ => respects_pure _

structure Thought.Agree (x y : Thought S) : Prop where
  move : x.move = y.move
  record : x.record = y.record
  nodes : x.nodes = y.nodes
  game : x.game = y.game
  session : x.session.Agree y.session

theorem thinkBy_agree (e : Engine) (g : Game) (limits : Limits) (clock : Clock)
    (last : SearchRecord) {s t : Session S} (h : s.Agree t)
    (hclock : ∀ l ∈ s.limitsAfter (opening g limits), l.Tellable S)
    (hspeed : SpeedTellable S (e.thinkBy g limits clock last s).record.nodes) :
    Thought.Agree (e.thinkBy g limits clock last s) (e.thinkBy g limits clock last t) := by
  obtain ⟨hresult, hstarted⟩ := h.start hclock
  unfold thinkBy at hspeed ⊢
  rcases hs : (Session.start limits (.position g.position.ply g.position.turn) none).run.run s with
    ⟨result, s₁⟩
  rcases ht : (Session.start limits (.position g.position.ply g.position.turn) none).run.run t with
    ⟨result', t₁⟩
  rw [hs, ht] at hresult hstarted
  obtain rfl : result = result' := hresult
  obtain ⟨j, rfl⟩ : s₁.Agree t₁ := hstarted
  simp only [hs, ht] at hspeed ⊢
  cases result with
  | error fault => exact ⟨rfl, rfl, rfl, rfl, j, rfl⟩
  | ok _ =>
    -- The watch and the goal of the search read everything but the journal.
    have hwatch : e.watch { s₁ with journal := j } (s₁.limits.getD limits) clock =
        e.watch s₁ (s₁.limits.getD limits) clock := rfl
    have hgoal : e.goal { s₁ with journal := j } (s₁.limits.getD limits) clock =
        e.goal s₁ (s₁.limits.getD limits) clock := rfl
    simp only [hwatch, hgoal] at hspeed ⊢
    rcases hr : searchOn chessRules Game.pop (e.watch s₁ (s₁.limits.getD limits) clock)
      (e.goal s₁ (s₁.limits.getD limits) clock) g with ⟨_ | r, game⟩
    · obtain ⟨hfinish, hafter⟩ := agree_finish 0 g.position.turn s₁ _ ⟨j, rfl⟩
      exact ⟨congrArg (Except.map fun _ => none) hfinish, rfl, rfl, rfl, hafter⟩
    · simp only [hr] at hspeed
      obtain ⟨hmove, hafter⟩ := agree_conclude g clock hspeed s₁ _ ⟨j, rfl⟩
      exact ⟨hmove, rfl, rfl, rfl, hafter⟩

end Engine

namespace Setup

structure Agree (x y : Setup S) : Prop where
  session : x.session.Agree y.session
  records : x.records = y.records

end Setup

def Outcome.Tellable : Outcome S → Prop
  | .answered _ limits => ∀ l ∈ limits, l.Tellable S
  | .thought _ record limits _ => (∀ l ∈ limits, l.Tellable S) ∧ SpeedTellable S record.nodes

namespace Setup
variable {engines : Nat → Engine} {x y : Setup S}

theorem Agree.after_step (h : x.Agree y) (op : Operation S)
    (htell : (x.step engines op).1.Tellable) :
    (x.step engines op).1 = (y.step engines op).1 ∧
      (x.step engines op).2.Agree (y.step engines op).2 := by
  cases op with
  | command now c =>
    obtain ⟨hanswer, hafter⟩ := h.session.after_step now c htell
    simp only [step, hanswer, h.session.limitsAfter]
    exact ⟨trivial, hafter, h.records⟩
  | search i g limits clock =>
    obtain ⟨hclock, hspeed⟩ := htell
    have hthought := (engines i).thinkBy_agree g limits clock (x.records i) h.session hclock hspeed
    simp only [step, ← h.records, hthought.move, hthought.record, hthought.game,
      h.session.limitsAfter]
    exact ⟨trivial, hthought.session, rfl⟩

theorem Agree.after_run (h : x.Agree y) {ops : List (Operation S)}
    (htell : ∀ o ∈ (x.run engines ops).1, o.Tellable) :
    (x.run engines ops).1 = (y.run engines ops).1 ∧
      (x.run engines ops).2.Agree (y.run engines ops).2 := by
  induction ops generalizing x y with
  | nil => exact ⟨rfl, h⟩
  | cons op rest ih =>
    obtain ⟨houtcome, hnext⟩ := h.after_step op (htell _ (.head _))
    obtain ⟨houtcomes, hlast⟩ := ih hnext fun o ho => htell o (.tail _ ho)
    exact ⟨congrArg₂ List.cons houtcome houtcomes, hlast⟩

end Setup

def Limits.Below (bound : Nat) (l : Limits) : Prop :=
  ∀ us, (l.time.get us).natAbs < bound ∧ (l.inc.get us).natAbs < bound

def Outcome.Below (bound : Nat) : Outcome S → Prop
  | .answered _ limits => ∀ l ∈ limits, l.Below bound
  | .thought _ record limits _ => (∀ l ∈ limits, l.Below bound) ∧ record.nodes < bound

namespace Number.Binary64
variable {k : Nat}

theorem exists_secondsText {ms : Int} (h : ms.natAbs < 2 ^ k) (hk : k ≤ 1000) :
    ∃ text, secondsText Float ms = .ok text := by
  obtain ⟨x, hx⟩ := exists_quotient (b := 1000) h (by omega) (by decide)
  simp only [secondsText, hx]
  exact ⟨_, rfl⟩

theorem speedTellable_of_lt {nodes : Nat} (h : nodes < 2 ^ k) (hk : k ≤ 1000) :
    SpeedTellable Float nodes := by
  intro elapsed
  unfold speedText
  split
  case isTrue hpos =>
    have hnodes : ((nodes : Int) * 1000).natAbs < 2 ^ (k + 10) := by
      rw [Int.natAbs_mul, Int.natAbs_natCast, Nat.pow_add]
      exact Nat.mul_lt_mul'' h (by decide)
    obtain ⟨x, hx⟩ := exists_quotient hnodes (by omega) hpos.ne'
    rw [hx]
    exact ⟨_, rfl⟩
  case isFalse => exact ⟨_, rfl⟩

end Number.Binary64

theorem Outcome.Below.tellable {o : Outcome Float} {k : Nat} (h : o.Below (2 ^ k))
    (hk : k ≤ 1000) : o.Tellable := by
  have hlimits {l : Limits} (hl : l.Below (2 ^ k)) : l.Tellable Float := fun us =>
    ⟨Binary64.exists_secondsText (hl us).1 hk, Binary64.exists_secondsText (hl us).2 hk⟩
  cases o with
  | answered answer limits => exact fun l hl => hlimits (h l hl)
  | thought move record limits game =>
    exact ⟨fun l hl => hlimits (h.1 l hl), Binary64.speedTellable_of_lt h.2 hk⟩

/-- A session and the engines that search with it go the same way with any journal, be it quiet or
not: the same answers, faults, moves, limits and games come of every list of operations, and the
same session and records are left, if the clocks and nodes that come of it are below `2 ^ 1000`. -/
theorem journal_without_influence (engines : Nat → Engine) (ops : List (Operation Float))
    (s : Session Float) (records : Nat → SearchRecord) (j k : Journal)
    (h : ∀ o ∈ (Setup.run engines ⟨{ s with journal := j }, records⟩ ops).1, o.Below (2 ^ 1000)) :
    let x := Setup.run engines ⟨{ s with journal := j }, records⟩ ops
    let y := Setup.run engines ⟨{ s with journal := k }, records⟩ ops
    x.1 = y.1 ∧ x.2.records = y.2.records ∧
      ∃ l, y.2.session = { x.2.session with journal := l } := by
  obtain ⟨houtcomes, hlast⟩ := Setup.Agree.after_run
    (x := ⟨{ s with journal := j }, records⟩) (y := ⟨{ s with journal := k }, records⟩)
    ⟨⟨k, rfl⟩, rfl⟩ fun o ho => (h o ho).tellable le_rfl
  exact ⟨houtcomes, hlast.records, hlast.session⟩

theorem journal_without_influence_on_two :
    let untimed := { Limits.unlimited 1000 with depth := 1 }
    let timed := Limits.forSide .white 60000 0 0 2000
    let ops : List (Operation Float) := [.search 0 .cornered untimed fun _ _ => 1000,
      .command 2000 (.start timed (.count 2) (some .white))]
    let s := Session.fresh Constants.tuned .standard .silent
    let x := Setup.run (fun _ => .standard) ⟨{ s with journal := .silent }, fun _ => .none⟩ ops
    let y := Setup.run (fun _ => .standard) ⟨{ s with journal := .attentive }, fun _ => .none⟩ ops
    x.1 = y.1 ∧ x.2.records = y.2.records := by
  intro untimed timed ops s
  have hbelow : ∀ o ∈ (Setup.run (fun _ => .standard)
      ⟨{ s with journal := .silent }, fun _ => .none⟩ ops).1, o.Below (2 ^ 1000) := by
    generalize hthought : Engine.standard.thinkBy .cornered untimed (fun _ _ => 1000) .none
      { s with journal := .silent } = thought
    have hnodes : thought.record.nodes < 2 ^ 1000 := by
      rw [← hthought]
      decide +kernel
    have hrate : thought.session.options.timeSettings.nodesPerMs = 0 := by
      rw [← hthought]
      decide +kernel
    have hlimits : untimed.Below (2 ^ 1000) ∧ timed.Below (2 ^ 1000) := by
      constructor <;> intro us <;> cases us <;> decide +kernel
    simp only [ops, Setup.run, Setup.step, hthought, List.forall_mem_cons, Outcome.Below,
      Engine.opening, Session.limitsAfter_start hrate]
    rw [Session.limitsAfter_start rfl]
    simp only [Option.mem_some_iff, forall_eq']
    exact ⟨⟨hlimits.1, hnodes⟩, hlimits.2, fun _ h => absurd h List.not_mem_nil⟩
  obtain ⟨houtcomes, hrecords, -⟩ := journal_without_influence (fun _ => .standard) ops s
    (fun _ => .none) .silent .attentive hbelow
  exact ⟨houtcomes, hrecords⟩

end Zeitnot
