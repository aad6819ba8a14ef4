import Mathlib.Tactic
import Zeitnot.Uci.Go
set_option autoImplicit false

namespace Zeitnot.Uci
open Text

/-! ### Segments and their words -/

inductive Segment.Spelled : Segment → List String → Prop
  | infinite : Spelled .infinite ["infinite"]
  | ponder : Spelled .ponder ["ponder"]
  | field (f : GoField) {i : Int} {w : String} (h : readInt w = .ok i) :
    Spelled (.field f i) [f.keyword, w]

inductive Spelled : List Segment → List String → Prop
  | nil : Spelled [] []
  | cons {x : Segment} {xs : List Segment} {ws rest : List String} (first : x.Spelled ws)
    (others : Spelled xs rest) : Spelled (x :: xs) (ws ++ rest)

/-- Words that begin with no segment, and what is missed in them. -/
inductive Misspelled : List String → GoFault → Prop
  | missingValue (f : GoField) : Misspelled [f.keyword] (.missingValue f.keyword)
  | numeral (f : GoField) {w : String} {rest : List String} {fault : NumeralFault}
    (h : readInt w = .error fault) : Misspelled (f.keyword :: w :: rest) (.numeral fault)
  | unknown {w : String} {rest : List String} (field : ∀ f : GoField, f.keyword ≠ w)
    (infinite : w ≠ "infinite") (ponder : w ≠ "ponder") : Misspelled (w :: rest) (.unknown w)

namespace GoField

theorem mem_all (f : GoField) : f ∈ all := by
  rcases f with (_ | _) | (_ | _) | _ | _ | _ | _ <;> decide

@[simp] theorem ofKeyword?_keyword (f : GoField) : ofKeyword? f.keyword = some f := by
  rcases f with (_ | _) | (_ | _) | _ | _ | _ | _ <;> decide

theorem keyword_of_ofKeyword? {w : String} {f : GoField} (h : ofKeyword? w = some f) :
    f.keyword = w := by simpa using List.find?_some h

theorem keyword_ne_of_ofKeyword? {w : String} (h : ofKeyword? w = none) (f : GoField) :
    f.keyword ≠ w := by simpa using List.find?_eq_none.1 h f f.mem_all

end GoField

theorem readSegments_of_spelled {x : Segment} {ws : List String} (h : x.Spelled ws)
    (rest : List String) : readSegments (ws ++ rest) = (readSegments rest).map (x :: ·) := by
  have hinfinite : GoField.ofKeyword? "infinite" = none := by decide
  have hponder : GoField.ofKeyword? "ponder" = none := by decide
  have hne : "ponder" ≠ "infinite" := by decide
  cases h with
  | infinite => simp [readSegments, hinfinite]
  | ponder => simp [readSegments, hponder, hne]
  | field f h => simp [readSegments, h]

theorem readSegments_of_misspelled {ws : List String} {fault : GoFault}
    (h : Misspelled ws fault) : readSegments ws = .error fault := by
  cases h with
  | missingValue f => simp [readSegments]
  | numeral f h => simp [readSegments, h]
  | unknown field infinite ponder =>
    have hnone : GoField.ofKeyword? _ = none :=
      List.find?_eq_none.2 fun f _ => by simpa using field f
    simp [readSegments, hnone, infinite, ponder]

theorem spelled_or_misspelled {ws : List String} (h : ws ≠ []) :
    (∃ x first rest, ws = first ++ rest ∧ Segment.Spelled x first) ∨
      ∃ fault, Misspelled ws fault := by
  obtain ⟨w, rest, rfl⟩ := List.exists_cons_of_ne_nil h
  cases hf : GoField.ofKeyword? w with
  | none =>
    by_cases hinfinite : w = "infinite"
    · exact .inl ⟨.infinite, [w], rest, rfl, hinfinite ▸ .infinite⟩
    by_cases hponder : w = "ponder"
    · exact .inl ⟨.ponder, [w], rest, rfl, hponder ▸ .ponder⟩
    exact .inr ⟨_, .unknown (GoField.keyword_ne_of_ofKeyword? hf) hinfinite hponder⟩
  | some f =>
    obtain rfl := GoField.keyword_of_ofKeyword? hf
    cases rest with
    | nil => exact .inr ⟨_, .missingValue f⟩
    | cons v rest =>
      cases hv : readInt v with
      | ok i => exact .inl ⟨.field f i, [f.keyword, v], rest, rfl, .field f hv⟩
      | error fault => exact .inr ⟨_, .numeral f hv⟩

theorem Segment.Spelled.length_pos {x : Segment} {ws : List String} (h : x.Spelled ws) :
    0 < ws.length := by cases h <;> simp

theorem Spelled.readSegments_append {xs : List Segment} {ws : List String} (h : Spelled xs ws)
    (rest : List String) : readSegments (ws ++ rest) = (readSegments rest).map (xs ++ ·) := by
  induction h with
  | nil =>
    rw [List.nil_append]
    cases readSegments rest <;> rfl
  | cons first others ih =>
    rw [List.append_assoc, readSegments_of_spelled first, ih]
    cases readSegments rest <;> rfl

theorem Spelled.readSegments_eq {xs : List Segment} {ws : List String} (h : Spelled xs ws) :
    readSegments ws = .ok xs := by
  have hread := h.readSegments_append []
  rw [List.append_nil] at hread
  rw [hread, readSegments]
  exact congrArg Except.ok (List.append_nil xs)

theorem exists_spelled (ws : List String) : ∃ xs front rest, ws = front ++ rest ∧
    Spelled xs front ∧ (rest = [] ∨ ∃ fault, Misspelled rest fault) := by
  induction hn : ws.length using Nat.strong_induction_on generalizing ws with
  | _ n ih =>
    by_cases hws : ws = []
    · exact ⟨[], [], [], by rw [hws, List.append_nil], .nil, .inl rfl⟩
    rcases spelled_or_misspelled hws with ⟨x, first, rest, rfl, hx⟩ | hmiss
    · have hlt : rest.length < n := by
        have hpos := hx.length_pos
        rw [List.length_append] at hn
        omega
      obtain ⟨xs, front, rest, rfl, hxs, hrest⟩ := ih rest.length hlt rest rfl
      exact ⟨x :: xs, first ++ front, rest, (List.append_assoc ..).symm, .cons hx hxs, hrest⟩
    · exact ⟨[], [], ws, rfl, .nil, .inr hmiss⟩

/-- Reading either finds all words to be those of segments, or is refused at the first one at which
none begins. -/
theorem readSegments_cases (ws : List String) :
    (∃ xs, Spelled xs ws ∧ readSegments ws = .ok xs) ∨
      ∃ xs front rest fault, ws = front ++ rest ∧ Spelled xs front ∧ Misspelled rest fault ∧
        readSegments ws = .error fault := by
  obtain ⟨xs, front, rest, rfl, hxs, rfl | ⟨fault, hrest⟩⟩ := exists_spelled ws
  · rw [List.append_nil]
    exact .inl ⟨xs, hxs, hxs.readSegments_eq⟩
  · refine .inr ⟨xs, front, rest, fault, rfl, hxs, hrest, ?_⟩
    rw [hxs.readSegments_append, readSegments_of_misspelled hrest]
    rfl

end Zeitnot.Uci
