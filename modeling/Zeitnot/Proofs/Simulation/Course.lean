import Mathlib.Tactic
import Zeitnot.Proofs.Stateful
import Zeitnot.Simulation
/-!
The course of a simulated game, and its clock as an account: what the plan brings in (the initial
time of every period, and the increments less the overheads) minus the optima that were spent. A
game ends in time after all its moves, or at the first move that leaves nothing on the clock.
-/
set_option autoImplicit false

namespace Zeitnot.Simulation
open Number Stateful

/-- What a recorded move leaves on the clock, before anything is added. -/
def Record.left (m : Record) (p : Plan) : Int := m.clockBefore - m.optimum - p.overhead

namespace Plan

def ply (p : Plan) (k : Nat) : Int := p.startPly + 2 * k

def limits (p : Plan) (k : Nat) (clock : Int) : Limits :=
  .forSide p.side clock p.increment (p.movesLeft k) 0

def gain (p : Plan) (k : Nat) : Int :=
  p.increment + if p.movesToGo ≠ 0 ∧ p.movesLeft k = 1 then p.initial else 0

/-- Periods of the time control that are over before the `k`th move. -/
def periods (p : Plan) (k : Nat) : Int := if p.movesToGo = 0 then 0 else k / p.movesToGo

/-- The clock after some moves, as the plan and their optima make it. -/
def clockAfter (p : Plan) (moves : List Record) : Int :=
  p.initial * (1 + p.periods moves.length) + moves.length * (p.increment - p.overhead) -
    (moves.map Record.optimum).sum

@[simp] theorem clockAfter_nil (p : Plan) : p.clockAfter [] = p.initial := by
  simp [clockAfter, periods]

theorem periods_succ {p : Plan} (h : 0 ≤ p.movesToGo) (k : Nat) :
    p.periods (k + 1) =
      p.periods k + if p.movesToGo ≠ 0 ∧ p.movesLeft k = 1 then 1 else 0 := by
  by_cases h0 : p.movesToGo = 0
  · simp [periods, h0]
  · have hpos : 0 < p.movesToGo := by omega
    have hmod : Int.fmod k p.movesToGo = k % p.movesToGo := Int.fmod_eq_emod_of_nonneg _ h
    have hdiv := Int.emod_add_mul_ediv k p.movesToGo
    have hnonneg := Int.emod_nonneg (k : Int) h0
    have hlt := Int.emod_lt_of_pos (k : Int) hpos
    simp only [periods, movesLeft, h0, hmod, if_false, ne_eq, not_false_eq_true, true_and,
      Nat.cast_add, Nat.cast_one]
    split
    -- the last move of a period: the next quotient is one more, without a remainder
    · refine ((Int.ediv_emod_unique (r := 0) hpos).2 ⟨?_, le_rfl, hpos⟩).1
      rw [mul_add]
      omega
    · rw [add_zero]
      refine ((Int.ediv_emod_unique (r := k % p.movesToGo + 1) hpos).2 ⟨?_, ?_, ?_⟩).1 <;> omega

theorem clockAfter_concat {p : Plan} (h : 0 ≤ p.movesToGo) {past : List Record} {m : Record}
    (hm : m.clockBefore = p.clockAfter past) :
    p.clockAfter (past ++ [m]) = m.left p + p.gain past.length := by
  simp only [Record.left, hm, clockAfter, gain, List.length_append, List.length_singleton,
    List.map_append, List.map_singleton, List.sum_append, List.sum_singleton, periods_succ h,
    Nat.cast_add, Nat.cast_one]
  split <;> ring

end Plan

variable {S : Type} [Scalar S]

structure Starts (p : Plan) (k : Nat) (clock : Int) (s s' : Session S) (m : Record) : Prop where
  run : (Session.start (p.limits k clock) (.count (p.ply k)) (some p.side)).run.run s = (.ok (), s')
  record : m = ⟨p.ply k, clock, s'.allocator.optimum, s'.allocator.maximum⟩

theorem Starts.clock_next {p : Plan} {k : Nat} {clock : Int} {s s' : Session S} {m : Record}
    (hstarts : Starts p k clock s s' m) (hM : 0 ≤ p.movesToGo) {past : List Record}
    (hk : k = past.length) (hclock : clock = p.clockAfter past) :
    m.left p + p.gain k = p.clockAfter (past ++ [m]) := by
  have hm : m.clockBefore = p.clockAfter past := by rw [hstarts.record]; exact hclock
  rw [hk, Plan.clockAfter_concat hM hm]

inductive Played (p : Plan) :
    (remaining k : Nat) → (clock : Int) → Session S → Report S → Prop
  | done {k : Nat} {clock : Int} {s : Session S} : Played p 0 k clock s ⟨[], false, clock, s.adjust⟩
  | flagged {n k : Nat} {clock : Int} {s s' : Session S} {m : Record}
      (starts : Starts p k clock s s' m) (late : m.left p ≤ 0) :
      Played p (n + 1) k clock s ⟨[m], true, m.left p, s'.adjust⟩
  | moved {n k : Nat} {clock : Int} {s s' : Session S} {m : Record} {r : Report S}
      (starts : Starts p k clock s s' m) (intime : 0 < m.left p)
      (rest : Played p n (k + 1) (m.left p + p.gain k) s' r) :
      Played p (n + 1) k clock s { r with records := m :: r.records }

theorem played_of_play {p : Plan} {n k : Nat} {clock : Int} {s : Session S} {r : Report S}
    (h : play p n k clock s = .ok r) : Played p n k clock s r := by
  induction n generalizing k clock s r with
  | zero =>
    cases h
    exact .done
  | succ n ih =>
    unfold play at h
    dsimp only at h
    rcases hrun : (Session.start (p.limits k clock) (.count (p.ply k)) (some p.side)).run.run s with
      ⟨fault | _, s'⟩ <;> rw [Plan.limits, Plan.ply] at hrun <;> rw [hrun] at h <;> dsimp only at h
    · cases h
    · have hstarts : Starts p k clock s s'
          ⟨p.ply k, clock, s'.allocator.optimum, s'.allocator.maximum⟩ := ⟨hrun, rfl⟩
      rw [← sub_sub] at h
      split at h <;> rename_i hleft
      · cases h
        exact .flagged hstarts hleft
      · rw [add_assoc] at h
        rcases hrest : play p n (k + 1) _ s' with fault | rest <;> rw [hrest] at h <;> cases h
        exact .moved hstarts (not_le.1 hleft) (ih hrest)

/-- A game that is simulated is played from its first move on, by a fresh session with the options
that were given or those of the plan. -/
theorem simulate_ok {c : Constants S} {p : Plan} {options : Option Options} {r : Report S}
    (h : simulate c p options = .ok r) :
    ∃ o, (options = some o ∨ options = none ∧ p.options = .ok o) ∧
      Played p p.moves.toNat 0 p.initial (Session.fresh c o .silent) r := by
  unfold simulate at h
  cases options with
  | some o => exact ⟨o, .inl rfl, played_of_play h⟩
  | none =>
    cases ho : p.options with
    | error fault => rw [ho] at h; cases h
    | ok o => rw [ho] at h; exact ⟨o, .inr ⟨rfl, rfl⟩, played_of_play h⟩

section
variable {p : Plan} {n k : Nat} {clock : Int} {s : Session S} {r : Report S}

theorem Played.record_at (h : Played p n k clock s r) (hM : 0 ≤ p.movesToGo) (past : List Record)
    (hk : k = past.length) (hclock : clock = p.clockAfter past) {i : Nat}
    (hi : i < r.records.length) :
    r.records[i].ply = p.ply (k + i) ∧
      r.records[i].clockBefore = p.clockAfter (past ++ r.records.take i) := by
  -- the moves so far are kept with the course, and the clock is always the account of them
  induction h generalizing past i with
  | done => exact absurd hi (Nat.not_lt_zero i)
  | flagged starts late =>
    obtain rfl : i = 0 := Nat.lt_one_iff.1 hi
    simp [starts.record, hclock]
  | @moved n k clock s s' m r starts intime rest ih =>
    cases i with
    | zero => simp [starts.record, hclock]
    | succ i =>
      have hnext := starts.clock_next hM hk hclock
      have hrest := ih (past ++ [m]) (by simp [hk]) hnext (Nat.lt_of_succ_lt_succ hi)
      simpa [Nat.add_right_comm k 1 i, Nat.add_assoc] using hrest

theorem Played.flagged_last (h : Played p n k clock s r) (hf : r.flagged = true) :
    ∃ before last, r.records = before ++ [last] ∧ last.left p = r.finalClock ∧
      r.finalClock ≤ 0 ∧ ∀ m ∈ before, 0 < m.left p := by
  induction h with
  | done => cases hf
  | @flagged n k clock s s' m starts late =>
    exact ⟨[], m, rfl, rfl, late, fun m hm => absurd hm List.not_mem_nil⟩
  | @moved n k clock s s' m r starts intime rest ih =>
    obtain ⟨before, last, hrecords, hlast, hfinal, hbefore⟩ := ih hf
    refine ⟨m :: before, last, by rw [hrecords]; rfl, hlast, hfinal, ?_⟩
    exact List.forall_mem_cons.2 ⟨intime, hbefore⟩

theorem Played.complete (h : Played p n k clock s r) (hf : r.flagged = false) :
    r.records.length = n ∧ ∀ m ∈ r.records, 0 < m.left p := by
  induction h with
  | done => exact ⟨rfl, fun m hm => absurd hm List.not_mem_nil⟩
  | flagged starts late => cases hf
  | @moved n k clock s s' m r starts intime rest ih =>
    obtain ⟨hlength, hin⟩ := ih hf
    exact ⟨congrArg (· + 1) hlength, List.forall_mem_cons.2 ⟨intime, hin⟩⟩

theorem Played.finalClock (h : Played p n k clock s r) (hf : r.flagged = false)
    (hM : 0 ≤ p.movesToGo) (past : List Record) (hk : k = past.length)
    (hclock : clock = p.clockAfter past) :
    r.finalClock = p.clockAfter (past ++ r.records) := by
  induction h generalizing past with
  | done => simpa using hclock
  | flagged starts late => cases hf
  | @moved n k clock s s' m r starts intime rest ih =>
    have hnext := starts.clock_next hM hk hclock
    have hrest := ih hf (past ++ [m]) (by simp [hk]) hnext
    simpa using hrest

/-- What holds before the first move, and after every move if it does so before, gives what is to
be shown of the records one by one. -/
theorem Played.forall_records {I : Nat → Int → Session S → Prop} {Q : Record → Prop}
    (h : Played p n k clock s r) (hI : I k clock s)
    (step : ∀ {k clock s s' m}, m ∈ r.records → I k clock s → Starts p k clock s s' m →
      Q m ∧ (0 < m.left p → I (k + 1) (m.left p + p.gain k) s')) : ∀ m ∈ r.records, Q m := by
  induction h with
  | done => exact fun m hm => absurd hm List.not_mem_nil
  | flagged starts late =>
    exact List.forall_mem_singleton.2 (step (List.mem_singleton_self _) hI starts).1
  | moved starts intime rest ih =>
    obtain ⟨hQ, hnext⟩ := step List.mem_cons_self hI starts
    exact List.forall_mem_cons.2 ⟨hQ, ih (hnext intime) fun hm => step (List.mem_cons_of_mem _ hm)⟩

end

/-- The clock of a simulated game is accounted for: before every move and at the end of a game that
is not lost on time it is what the plan has brought in less the optima spent. A game is lost on time
with its last recorded move, and with no move before. -/
theorem clock_conserved {c : Constants S} {p : Plan} {options : Option Options} {r : Report S}
    (hM : 0 ≤ p.movesToGo) (h : simulate c p options = .ok r) :
    (∀ (k : Nat) (hk : k < r.records.length), r.records[k].ply = p.startPly + 2 * k ∧
      r.records[k].clockBefore = p.clockAfter (r.records.take k)) ∧
    (r.flagged = true → ∃ before last, r.records = before ++ [last] ∧
      last.left p = r.finalClock ∧ r.finalClock ≤ 0 ∧ ∀ m ∈ before, 0 < m.left p) ∧
    (r.flagged = false → (r.records.length : Int) = max 0 p.moves ∧
      (∀ m ∈ r.records, 0 < m.left p) ∧ r.finalClock = p.clockAfter r.records) := by
  obtain ⟨o, -, hplayed⟩ := simulate_ok h
  have hstart : p.initial = p.clockAfter [] := p.clockAfter_nil.symm
  refine ⟨fun k hk => ?_, hplayed.flagged_last, fun hf => ?_⟩
  · simpa [Plan.ply] using hplayed.record_at hM [] rfl hstart hk
  · obtain ⟨hlength, hin⟩ := hplayed.complete hf
    have hfinal := hplayed.finalClock hf hM [] rfl hstart
    exact ⟨by omega, hin, by simpa using hfinal⟩

theorem clock_conserved_into_second_period :
    let p : Plan := ⟨1000, 100, 3, 2, 10, 1⟩
    0 ≤ p.movesToGo ∧ ∃ r, simulate Constants.tuned p none = .ok r ∧
      r.records.map Record.optimum = [200, 178, 360] ∧
      r.finalClock = 1000 * (1 + 1) + 3 * (100 - 10) - (200 + 178 + 360) := by
  intro p
  have hcourse : (simulate Constants.tuned p none).toOption.map
      (fun r => (r.flagged, r.records.map Record.optimum)) = some (false, [200, 178, 360]) := by
    decide +kernel
  obtain ⟨r, hr, hcourse⟩ := exists_of_toOption_map hcourse
  obtain ⟨hflagged, hoptima⟩ := Prod.mk.inj hcourse
  obtain ⟨-, -, hfinal⟩ := clock_conserved (by decide) hr
  obtain ⟨hlength, -, hclock⟩ := hfinal hflagged
  refine ⟨by decide, r, hr, hoptima, ?_⟩
  rw [hclock, Plan.clockAfter, hoptima, Plan.periods, hlength]
  decide

end Zeitnot.Simulation
