import Zeitnot.Options.Table
import Zeitnot.Proofs.Text.Numeral
set_option autoImplicit false

namespace Zeitnot
open Config Text

namespace Options

theorem name_of_find? {o : Options} {name : String} {s : Setting} (h : o.find? name = some s) :
    s.name = name := by
  have hs := List.find?_some h
  simpa using hs

theorem find?_map_replace {ss : List Setting} {s : Setting}
    (h : (ss.find? fun t => t.name == s.name).isSome = true) :
    ((ss.map fun t => if t.name = s.name then s else t).find? fun t => t.name == s.name) =
      some s := by
  induction ss with
  | nil => simp at h
  | cons t ss ih =>
    by_cases ht : t.name = s.name
    · simp [ht]
    · have hrest : (ss.find? fun t => t.name == s.name).isSome = true := by simpa [ht] using h
      simp only [List.map_cons, if_neg ht, List.find?_cons, beq_eq_false_iff_ne.2 ht]
      exact ih hrest

theorem find?_map_replace_of_ne {ss : List Setting} {s : Setting} {name : String}
    (hne : s.name ≠ name) :
    ((ss.map fun t => if t.name = s.name then s else t).find? fun t => t.name == name) =
      ss.find? fun t => t.name == name := by
  induction ss with
  | nil => rfl
  | cons t ss ih =>
    rw [List.map_cons, List.find?_cons, List.find?_cons, ih]
    by_cases ht : t.name = s.name
    · rw [if_pos ht, beq_eq_false_iff_ne.2 hne, beq_eq_false_iff_ne.2 (ht ▸ hne)]
    · rw [if_neg ht]

theorem find?_declare {o : Options} {s : Setting} (h : (o.find? s.name).isSome = true) :
    (o.declare s).find? s.name = some s := by
  rw [declare, if_pos h]
  exact find?_map_replace h

theorem find?_declare_value {o : Options} {name : String} {s : Setting}
    (h : o.find? name = some s) (v : Value) :
    (o.declare { s with value := v }).find? name = some { s with value := v } := by
  have hname := name_of_find? h
  rw [← hname]
  exact find?_declare (s := { s with value := v }) (by rw [hname, h]; rfl)

/-- A table with an integer setting of a name, between bounds. -/
def HasSpin (o : Options) (name : String) (least greatest : Int) : Prop :=
  ∃ s, o.find? name = some s ∧ s.kind = .spin ∧ s.least = .int least ∧ s.greatest = .int greatest

theorem checkRange_of_le {s : Setting} {least greatest i : Int} (hl : s.least = .int least)
    (hg : s.greatest = .int greatest) (hi : least ≤ i ∧ i ≤ greatest) :
    s.checkRange i = .ok (.int i) := by
  have hlt : ¬ compare i least = .lt := by simpa [Int.compare_eq_lt] using hi.1
  have hgt : ¬ compare i greatest = .gt := by simpa [Int.compare_eq_gt] using hi.2
  simp [Setting.checkRange, hl, hg, Value.isNumber, Value.compareInt, hlt, hgt]

theorem set_spin {o : Options} {name : String} {least greatest i : Int}
    (h : o.HasSpin name least greatest) (hi : least ≤ i ∧ i ≤ greatest)
    (hlen : i.natAbs < 10 ^ digitLimit) :
    ∃ o', o.set name (.int i) = .ok o' ∧ o'.intValue name = i ∧ o'.HasSpin name least greatest := by
  obtain ⟨s, hs, hk, hl, hg⟩ := h
  have hparse : s.parse (.int i) = .ok (.int i) := by
    simp only [Setting.parse, hk, Value.plain_int, strip_toString, readInt_toString hlen]
    exact checkRange_of_le hl hg hi
  have hfind := find?_declare_value hs (.int i)
  refine ⟨o.declare { s with value := .int i }, ?_, ?_, ⟨_, hfind, hk, hl, hg⟩⟩
  · simp only [set, hs, Setting.put, hparse]
    rfl
  · rw [intValue, hfind]
    rfl

theorem HasSpin.set {o o' : Options} {name name' : String} {least greatest : Int} {raw : Value}
    (h : o.HasSpin name least greatest) (hset : o.set name' raw = .ok o') :
    o'.HasSpin name least greatest := by
  obtain ⟨s, hs, hk, hl, hg⟩ := h
  unfold Options.set at hset
  cases ht : o.find? name' with
  | none => rw [ht] at hset; cases hset
  | some t =>
    simp only [ht, Setting.put] at hset
    cases hp : t.parse raw with
    | error fault => rw [hp] at hset; cases hset
    | ok v =>
      rw [hp] at hset
      cases hset
      have htname : t.name = name' := name_of_find? ht
      by_cases hname : name' = name
      · subst hname
        rw [hs] at ht
        cases ht
        exact ⟨_, find?_declare_value hs v, hk, hl, hg⟩
      · refine ⟨s, ?_, hk, hl, hg⟩
        have hne : ({ t with value := v } : Setting).name ≠ name := htname ▸ hname
        rw [declare, if_pos (by rw [htname, ht]; rfl)]
        exact (find?_map_replace_of_ne hne).trans hs

theorem HasSpin.reset {o : Options} {name : String} {least greatest : Int}
    (h : o.HasSpin name least greatest) : o.reset.HasSpin name least greatest := by
  obtain ⟨s, hs, hk, hl, hg⟩ := h
  refine ⟨s.reset, ?_, hk, hl, hg⟩
  simp only [find?, Options.reset, List.find?_map, Function.comp_def, Setting.reset] at hs ⊢
  rw [hs]
  rfl

end Options
end Zeitnot
