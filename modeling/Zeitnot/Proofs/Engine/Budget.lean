import Zeitnot.Proofs.Engine.Thinking
import Zeitnot.Proofs.Options.Table
/-!
The node budget of a game. It is kept in a ledger: the first search by nodes opens it with its clock
in nodes, every search by nodes books what it uses and what its increment brings, and no other
search leaves a mark. The allocator holds the balance at every point of a game.
-/
set_option autoImplicit false

namespace Zeitnot
open Number Search Stateful

/-- What a search brings to the node budget and takes from it. -/
structure Booking where
  /-- Nodes that stand for a millisecond; zero if nodes do not stand for time. -/
  rate : Int
  time : Int
  inc : Int
  nodes : Int
  deriving DecidableEq, Repr

namespace Booking

def InRange (x : Booking) : Prop := (0 ≤ x.rate ∧ x.rate ≤ 10000) ∧ 0 ≤ x.time

instance (x : Booking) : Decidable x.InRange := inferInstanceAs (Decidable (_ ∧ _))

def opened (x : Booking) (b : Option Int) : Option Int :=
  if 0 < x.rate ∧ 0 < x.time then some (b.getD (x.rate * x.time)) else b

def booked (x : Booking) (b : Option Int) : Option Int :=
  if 0 < x.rate ∧ 0 < x.time then
    some (max 0 (b.getD (x.rate * x.time) - x.nodes + x.rate * x.inc))
  else b

end Booking

/-- The budget after some searches; none before the first that is by nodes. -/
def ledger (xs : List Booking) : Option Int := xs.foldl (fun b x => x.booked b) none

structure Allocator.Holds (a : Allocator) (b : Option Int) : Prop where
  availableNodes : a.availableNodes = b.getD Allocator.unseeded
  nonneg : ∀ v ∈ b, 0 ≤ v

theorem Allocator.Holds.seed {a : Allocator} {b : Option Int} (h : a.Holds b) {rate time : Int}
    (hp : 0 < rate * time) : (a.seed rate time).Holds (some (b.getD (rate * time))) := by
  cases b with
  | none =>
    have ha : a.availableNodes = unseeded := h.availableNodes
    refine ⟨by simp [Allocator.seed, ha], fun v hv => ?_⟩
    cases hv
    exact hp.le
  | some v =>
    have hv : 0 ≤ v := h.nonneg v rfl
    have ha : a.availableNodes = v := h.availableNodes
    have hne : a.availableNodes ≠ unseeded := by rw [ha, unseeded]; omega
    refine ⟨by rw [Allocator.seed, if_neg hne]; exact ha, h.nonneg⟩

theorem Allocator.Holds.charge {a : Allocator} {v : Int} (h : a.Holds (some v)) (nodes : Int) :
    (a.charge nodes).Holds (some (max 0 (v - nodes))) := by
  have ha : a.availableNodes = v := h.availableNodes
  refine ⟨by simp [Allocator.charge, ha], fun w hw => ?_⟩
  cases hw
  exact le_max_left _ _

theorem Allocator.Holds.of_eq {a a' : Allocator} {b : Option Int} (h : a.Holds b)
    (ha : a'.availableNodes = a.availableNodes) : a'.Holds b :=
  ⟨ha.trans h.availableNodes, h.nonneg⟩

section
variable {x : Booking} {b : Option Int} {a : Allocator} {l : Limits} {us : Side}

theorem Booking.InRange.counted (hx : x.InRange) :
    (x.time ≠ 0 ∧ x.rate ≠ 0) ↔ 0 < x.rate ∧ 0 < x.time := by
  obtain ⟨⟨hr, -⟩, ht⟩ := hx
  constructor <;> rintro ⟨h, h'⟩ <;> constructor <;> omega

theorem Allocator.Holds.engage (h : a.Holds b) (hx : x.InRange) (ht : l.time.get us = x.time) :
    (a.engage l us x.rate).Holds (x.opened b) := by
  unfold Allocator.engage Booking.opened
  rw [ht]
  by_cases hc : 0 < x.rate ∧ 0 < x.time
  · rw [if_pos (hx.counted.2 hc), if_pos hc]
    have hcounting : Allocator.Holds { a with startTime := l.startTime, useNodes := true } b :=
      h.of_eq rfl
    exact hcounting.seed (Int.mul_pos hc.1 hc.2)
  · rw [if_neg (hx.counted.not.2 hc), if_neg hc]
    exact h.of_eq rfl

end

namespace Session
variable {S : Type} [Scalar S]

/-- A search that is armed opens the ledger, if it is by nodes, and books itself when it is
finished. -/
theorem start_holds {s s' : Session S} {limits : Limits} {root : Root} {us? : Option Side}
    {us : Side} {b : Option Int} {x : Booking} (hx : x.InRange)
    (hrate : s.options.timeSettings.nodesPerMs = x.rate) (hu : (us? <|> root.turn?) = some us)
    (ht : limits.time.get us = x.time) (hi : limits.inc.get us = x.inc)
    (hb : s.allocator.Holds b) (h : (start limits root us?).run.run s = (.ok (), s')) :
    s'.options = s.options ∧ s'.allocator.Holds (x.opened b) ∧
      (s'.settled x.nodes us).Holds (x.booked b) := by
  obtain ⟨us', adjust', limits', a, j, hu', rfl, he⟩ := start_ok h
  rw [hu] at hu'
  cases hu'
  have hlimits : limits' = limits.engage s.allocator us x.rate := hrate ▸ he.limits
  obtain ⟨optimum, maximum, ha⟩ := he.engaged
  have ha : a = { s.allocator.engage limits us x.rate with optimum, maximum } := hrate ▸ ha
  have hopened : a.Holds (x.opened b) := (hb.engage hx ht).of_eq (by rw [ha])
  refine ⟨rfl, hopened, ?_⟩
  unfold settled
  by_cases hc : 0 < x.rate ∧ 0 < x.time
  · have hcounted := hx.counted.2 hc
    have hnodes : a.useNodes = true := by
      rw [ha, Allocator.engage, ht, if_pos hcounted]
      simp
    simp only [Booking.opened, if_pos hc] at hopened
    have hcharge := hopened.charge (x.nodes - x.inc * x.rate)
    rw [hlimits, Limits.engage, ht, if_pos hcounted]
    simp only [Limits.inNodes, PerSide.get_set, hi, hnodes, hcounted.2, ne_eq, not_false_eq_true,
      and_self, if_true, Booking.booked, if_pos hc]
    rwa [show b.getD (x.rate * x.time) - x.nodes + x.rate * x.inc =
      b.getD (x.rate * x.time) - (x.nodes - x.inc * x.rate) by ring]
  · have hnodes : a.useNodes = false := by
      rw [ha, Allocator.engage, ht, if_neg (hx.counted.not.2 hc)]
    simp only [Booking.opened, if_neg hc] at hopened
    simpa [hnodes, Booking.booked, if_neg hc] using hopened

theorem hasSpin_run {s : Session S} {name : String} {least greatest : Int}
    (hs : s.options.HasSpin name least greatest) (cmds : List (Int × Command S)) :
    (s.run cmds).2.options.HasSpin name least greatest := by
  induction cmds generalizing s with
  | nil => exact hs
  | cons nc cmds ih =>
    obtain ⟨now, c⟩ := nc
    refine ih (s := (s.step now c).2) ?_
    obtain h | h | ⟨name', raw, h⟩ := (step_keeps s now c).2
    · rw [h]; exact hs
    · rw [h]; exact hs.reset
    · exact hs.set h

theorem step_setRate {s : Session S} (hs : s.options.HasSpin "nodestime" 0 10000) {rate : Int}
    (hr : 0 ≤ rate ∧ rate ≤ 10000) (now : Int) :
    ∃ options, s.step now (.setOption "nodestime" (.int rate)) = (.ok .done, { s with options }) ∧
      options.timeSettings.nodesPerMs = rate ∧ options.HasSpin "nodestime" 0 10000 := by
  have hlen : rate.natAbs < 10 ^ Text.digitLimit := by
    have hpow : 10 ^ 5 ≤ 10 ^ Text.digitLimit := Nat.pow_le_pow_right (by decide) (by decide)
    omega
  obtain ⟨options, hset, hvalue, hspin⟩ := Options.set_spin hs hr hlen
  exact ⟨options, by rw [step_setOption, hset], hvalue, hspin⟩

theorem step_start_ok {s : Session S} {now : Int} {limits : Limits} {root : Root}
    {us? : Option Side} (h : (s.step now (.start limits root us?)).1.isOk = true) :
    (start limits root us?).run.run s = (.ok (), (s.step now (.start limits root us?)).2) := by
  simp only [step, perform] at h ⊢
  rw [run_bind] at h ⊢
  rcases hr : (start limits root us?).run.run s with ⟨_ | _, s₁⟩
  · rw [hr] at h
    cases h
  · rfl

end Session

section
variable {S : Type} [Scalar S]

def armingAt (now : Int) (rate : Int) (limits : Limits) (root : Root) (us : Side) :
    List (Int × Command S) :=
  [(now, .setOption "nodestime" (.int rate)), (now, .start limits root (some us))]

/-- One search of a game: by commands, or by an engine. -/
inductive Turn (s : Session S) (x : Booking) : Session S → Prop
  | commands {now later : Int} {limits : Limits} {root : Root} {us : Side}
      (time : limits.time.get us = x.time) (inc : limits.inc.get us = x.inc)
      (ok : ∀ answer ∈ (s.run (armingAt now x.rate limits root us)).1, answer.isOk = true) :
      Turn s x ((s.run (armingAt now x.rate limits root us)).2.step later (.finish x.nodes us)).2
  | search {now : Int} {e : Engine} {g : Chess.Game} {limits : Limits} {clock : Engine.Clock}
      {last : SearchRecord} {move : Option Chess.Move}
      (time : limits.time.get g.position.turn = x.time)
      (inc : limits.inc.get g.position.turn = x.inc)
      (ok : (e.thinkBy g limits clock last
        (s.step now (.setOption "nodestime" (.int x.rate))).2).move = .ok move)
      (nodes : (e.thinkBy g limits clock last
        (s.step now (.setOption "nodestime" (.int x.rate))).2).record.nodes = x.nodes) :
      Turn s x (e.thinkBy g limits clock last
        (s.step now (.setOption "nodestime" (.int x.rate))).2).session

inductive Turns (s : Session S) : List Booking → Session S → Prop
  | nil : Turns s [] s
  | snoc {xs : List Booking} {x : Booking} {s₁ s₂ : Session S} (before : Turns s xs s₁)
      (turn : Turn s₁ x s₂) : Turns s (xs ++ [x]) s₂

theorem armingAt_holds {s : Session S} {b : Option Int} {x : Booking} {now : Int} {limits : Limits}
    {root : Root} {us : Side} (hs : s.options.HasSpin "nodestime" 0 10000)
    (hb : s.allocator.Holds b) (hx : x.InRange) (ht : limits.time.get us = x.time)
    (hi : limits.inc.get us = x.inc)
    (hok : ∀ answer ∈ (s.run (armingAt now x.rate limits root us)).1, answer.isOk = true) :
    (s.run (armingAt now x.rate limits root us)).2.options.HasSpin "nodestime" 0 10000 ∧
      (s.run (armingAt now x.rate limits root us)).2.allocator.Holds (x.opened b) ∧
      ((s.run (armingAt now x.rate limits root us)).2.settled x.nodes us).Holds (x.booked b) := by
  obtain ⟨options, hset, hrate, hspin⟩ := Session.step_setRate hs hx.1 now
  have hanswers : (s.run (armingAt now x.rate limits root us)).1 =
      [.ok .done, (Session.step { s with options } now (.start limits root (some us))).1] := by
    simp only [armingAt, Session.run, hset]
  have hrun : (s.run (armingAt now x.rate limits root us)).2 =
      (Session.step { s with options } now (.start limits root (some us))).2 := by
    simp only [armingAt, Session.run, hset]
  rw [hrun]
  rw [hanswers] at hok
  have hstart := Session.step_start_ok
    (hok _ (List.mem_cons_of_mem _ (List.mem_singleton.2 rfl)))
  obtain ⟨hkeep, hopened, hbooked⟩ :=
    Session.start_holds (s := { s with options }) hx hrate rfl ht hi hb hstart
  exact ⟨by rw [hkeep]; exact hspin, hopened, hbooked⟩

theorem Turn.holds {s s' : Session S} {b : Option Int} {x : Booking} (h : Turn s x s')
    (hs : s.options.HasSpin "nodestime" 0 10000) (hb : s.allocator.Holds b) (hx : x.InRange) :
    s'.options.HasSpin "nodestime" 0 10000 ∧ s'.allocator.Holds (x.booked b) := by
  cases h with
  | @commands now later limits root us ht hi hok =>
    obtain ⟨hspin, -, hbooked⟩ := armingAt_holds hs hb hx ht hi hok
    obtain ⟨j, hj⟩ := Session.step_finish (s.run (armingAt now x.rate limits root us)).2 later
      x.nodes us
    rw [hj]
    exact ⟨hspin, hbooked⟩
  | @search now e g limits clock last move ht hi hok hn =>
    obtain ⟨options, hset, hrate, hspin⟩ := Session.step_setRate hs hx.1 now
    rw [hset] at hok hn ⊢
    obtain ⟨s₁, j, hstart, hsession, -⟩ := Engine.thinkBy_ok hok
    obtain ⟨hkeep, -, hbooked⟩ :=
      Session.start_holds (s := { s with options }) hx hrate rfl ht hi hb hstart
    rw [hsession, hn]
    exact ⟨by rw [hkeep]; exact hspin, hbooked⟩

theorem Turns.holds {s s' : Session S} {xs : List Booking} (h : Turns s xs s')
    (hs : s.options.HasSpin "nodestime" 0 10000) (hb : s.allocator.Holds none)
    (hx : ∀ x ∈ xs, x.InRange) :
    s'.options.HasSpin "nodestime" 0 10000 ∧ s'.allocator.Holds (ledger xs) := by
  induction h with
  | nil => exact ⟨hs, hb⟩
  | @snoc xs x s₁ s₂ before turn ih =>
    obtain ⟨hspin, hholds⟩ := ih fun y hy => hx y (by simp [hy])
    have hnext := turn.holds hspin hholds (hx x (by simp))
    rw [ledger, List.foldl_append]
    exact hnext

/-- The node budget of a game is the balance of its ledger, whatever was asked of the session before
the game: after any searches, and while the next one is under way. -/
theorem availableNodes_of_turns {s s' : Session S} {past : List (Int × Command S)}
    {xs : List Booking} (hs : s.options.HasSpin "nodestime" 0 10000) (hx : ∀ x ∈ xs, x.InRange)
    (h : Turns (s.run past).2.newGame xs s') :
    s'.allocator.availableNodes = (ledger xs).getD Allocator.unseeded ∧
      (∀ b ∈ ledger xs, 0 ≤ b) ∧
      ∀ (x : Booking) (now : Int) (limits : Limits) (root : Root) (us : Side), x.InRange →
        limits.time.get us = x.time →
        (∀ answer ∈ (s'.run (armingAt now x.rate limits root us)).1, answer.isOk = true) →
        (s'.run (armingAt now x.rate limits root us)).2.allocator.availableNodes =
          (x.opened (ledger xs)).getD Allocator.unseeded := by
  have hfresh : (s.run past).2.newGame.allocator.Holds none := ⟨rfl, fun v hv => by cases hv⟩
  obtain ⟨hspin, hholds⟩ := h.holds (Session.hasSpin_run hs past) hfresh hx
  refine ⟨hholds.availableNodes, hholds.nonneg, fun x now limits root us hx' ht hok => ?_⟩
  have hx'' : Booking.InRange { x with inc := limits.inc.get us } := hx'
  obtain ⟨-, hopened, -⟩ := armingAt_holds hspin hholds hx'' ht rfl hok
  exact hopened.availableNodes

end

theorem availableNodes_of_two_turns :
    let past := armingAt 0 3 (.forSide .black 40 0 1 0) (.count 1) .black ++
      [(1, .finish 20 .black), (2, .resetOptions)]
    ∃ s, Turns ((Session.fresh Constants.tuned .standard .silent).run past).2.newGame
        [⟨2, 100, 5, 30⟩, ⟨2, 70, 5, 1⟩] s ∧ s.allocator.availableNodes = 189 := by
  intro past
  let limits (time : Int) : Limits := .forSide .white time 5 1 0
  let s₀ := ((Session.fresh Constants.tuned .standard .silent).run past).2.newGame
  let s₁ := ((s₀.run (armingAt 0 2 (limits 100) (.count 0) .white)).2.step 9
    (.finish 30 .white)).2
  let s₂ := (s₁.step 9 (.setOption "nodestime" (.int 2))).2
  let thought := Engine.standard.thinkBy .cornered { limits 70 with depth := 1 } (fun _ _ => 9)
    .none s₂
  have first : Turn s₀ ⟨2, 100, 5, 30⟩ s₁ := .commands rfl rfl (by decide +kernel)
  obtain ⟨move, hmove⟩ : ∃ move, thought.move = .ok move :=
    exists_of_isOk (by decide +kernel)
  have second : Turn s₁ ⟨2, 70, 5, 1⟩ thought.session :=
    .search rfl rfl hmove (by decide +kernel)
  have turns := Turns.snoc (Turns.snoc Turns.nil first) second
  have hspin : Options.standard.HasSpin "nodestime" 0 10000 := ⟨_, rfl, rfl, rfl, rfl⟩
  have hin : ∀ x ∈ [⟨2, 100, 5, 30⟩, ⟨2, 70, 5, 1⟩], Booking.InRange x := by decide
  have hbudget := availableNodes_of_turns (s := Session.fresh Constants.tuned .standard .silent)
    hspin hin turns
  exact ⟨_, turns, hbudget.1⟩

end Zeitnot
