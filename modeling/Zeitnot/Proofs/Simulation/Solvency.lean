import Zeitnot.Proofs.Simulation.Spending
set_option autoImplicit false

namespace Zeitnot.Simulation
open Number Stateful

theorem Plan.timeSettings_of_options {p : Plan} {o : Options} (h : p.options = .ok o) :
    o.timeSettings.nodesPerMs = 0 ∧ o.timeSettings.ponder = false := by
  obtain ⟨s, v, -, -, rfl⟩ := Options.set_ok Options.declared_standard.nodup h
  exact ⟨rfl, rfl⟩

/-- A clock that lasts for a move: a fifth of it can be spent beside the overhead. -/
def Plan.Lasts (p : Plan) (clock : Int) : Prop := 5 ≤ clock ∧ 5 * p.overhead < 4 * clock

theorem Plan.Lasts.next {p : Plan} (hinitial : 0 ≤ p.initial)
    (hincrement : p.Lasts (p.increment + 1)) {left : Int} (hleft : 0 < left) (k : Nat) :
    p.Lasts (left + p.gain k) := by
  have hgain : p.increment ≤ p.gain k := by
    unfold Plan.gain
    split <;> omega
  obtain ⟨hfive, hover⟩ := hincrement
  exact ⟨by omega, by omega⟩

variable {S : Type} [Scalar S]

/-- A game whose first clock lasts for a move, and whose increment with a millisecond does, is never
lost on time: all its moves are made, each with five milliseconds at least. -/
theorem never_flagged {c : Constants S} {p : Plan} {r : Report S} (hinitial : 5 ≤ p.initial)
    (hincrement : 4 ≤ p.increment) (hfirst : 5 * p.overhead < 4 * p.initial)
    (hlater : 5 * p.overhead < 4 * (p.increment + 1))
    (hcap : ∀ m ∈ r.records, CapsAtFifth c m.clockBefore) (h : simulate c p none = .ok r) :
    r.flagged = false ∧ (r.records.length : Int) = max 0 p.moves ∧
      ∀ m ∈ r.records, 5 ≤ m.clockBefore := by
  obtain ⟨o, ho, hplayed⟩ := simulate_ok h
  obtain ⟨hwall, hponder⟩ := Plan.timeSettings_of_options (o := o) (by simpa using ho)
  -- every clock of the game lasts for its move, the first by assumption
  have hsafe : ∀ m ∈ r.records, 5 ≤ m.clockBefore ∧ 0 < m.left p := by
    refine hplayed.forall_records (I := fun _ clock s => p.Lasts clock ∧ Ready p c o clock s)
      ⟨⟨hinitial, hfirst⟩, ready_fresh p c o⟩ ?_
    rintro k clock s s' m hm ⟨⟨hfive, hover⟩, hready⟩ hstarts
    have hbefore : m.clockBefore = clock := by rw [hstarts.record]
    obtain ⟨hnext, scale, aim, hbounds⟩ :=
      hready.after hstarts (by omega) fun hnodes => absurd hwall hnodes
    rw [Plan.clockOf, if_pos hwall] at hbounds
    have hfifth := hbounds.aim_le_fifth (hbefore ▸ hcap m hm)
    have hoptimum := hbounds.optimum_eq
    rw [hponder] at hoptimum
    have hleft : 0 < m.left p := by
      simp only [Record.left, hbefore, hoptimum, Bool.false_eq_true, if_false]
      omega
    exact ⟨⟨by omega, hleft⟩, fun _ =>
      ⟨.next (by omega) ⟨by omega, hlater⟩ hleft k, hnext _⟩⟩
  have hflagged : r.flagged = false := by
    by_contra hf
    obtain ⟨before, last, hrecords, hlast, hfinal, -⟩ :=
      hplayed.flagged_last (by simpa using hf)
    have hleft := (hsafe last (by simp [hrecords])).2
    omega
  have hlength := (hplayed.complete hflagged).1
  exact ⟨hflagged, by omega, fun m hm => (hsafe m hm).1⟩

theorem never_flagged_at_five :
    ∃ r, simulate Constants.tuned ⟨5, 4, 3, 40, 3, 0⟩ none = .ok r ∧
      (∀ m ∈ r.records, CapsAtFifth Constants.tuned m.clockBefore) ∧
      r.flagged = false ∧ r.records.length = 3 ∧ ∀ m ∈ r.records, 5 ≤ m.clockBefore := by
  have hcourse : (simulate Constants.tuned ⟨5, 4, 3, 40, 3, 0⟩ none).toOption.map
      Report.records = some [⟨0, 5, 1, 1⟩, ⟨2, 5, 1, 1⟩, ⟨4, 5, 1, 1⟩] := by
    decide +kernel
  obtain ⟨r, hr, hrecords⟩ := exists_of_toOption_map hcourse
  have hcap : ∀ m ∈ r.records, CapsAtFifth Constants.tuned m.clockBefore := by
    rw [hrecords]
    decide +kernel
  obtain ⟨hflagged, hlength, hclocks⟩ :=
    never_flagged (by decide) (by decide) (by decide) (by decide) hcap hr
  exact ⟨r, hr, hcap, hflagged, Int.ofNat.inj hlength, hclocks⟩

end Zeitnot.Simulation
