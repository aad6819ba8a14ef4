import Mathlib.Tactic
import Zeitnot.Proofs.Options.Loading
set_option autoImplicit false

namespace Zeitnot
open Config

namespace Setting

theorem checkRange_ne_notMapping (s : Setting) (i : Int) (file : String) :
    s.checkRange i ≠ .error (.notMapping file) := by
  unfold checkRange
  simp only [ne_eq]
  split_ifs <;> simp

theorem parse_ne_notMapping (s : Setting) (raw : Value) (file : String) :
    s.parse raw ≠ .error (.notMapping file) := by
  unfold parse
  split
  case h_2 =>
    dsimp only
    split_ifs <;> simp
  case h_4 =>
    split
    · simp
    · exact s.checkRange_ne_notMapping _ file
  all_goals simp

end Setting

namespace Options

theorem set_ne_notMapping (o : Options) (name : String) (raw : Value) (file : String) :
    o.set name raw ≠ .error (.notMapping file) := by
  unfold set
  split
  · simp
  · rename_i s _
    cases hp : s.parse raw with
    | ok v =>
      simp only [Setting.put, hp]
      exact fun h => by cases h
    | error fault =>
      simp only [Setting.put, hp]
      intro h
      cases h
      exact s.parse_ne_notMapping raw file hp

theorem setAll_ne_notMapping (file file' : String) (kvs : List (Value × Value)) (o : Options) :
    (setAll file kvs o).2 ≠ .error (.notMapping file') := by
  induction kvs generalizing o with
  | nil => simp [setAll]
  | cons kv kvs ih =>
    obtain ⟨k, raw⟩ := kv
    cases k with
    | text name =>
      rw [setAll]
      split
      · simp
      · cases hset : o.set name raw with
        | ok o' => exact ih o'
        | error fault =>
          intro h
          cases h
          exact o.set_ne_notMapping name raw file' hset
    | _ => simp [setAll]

def valueOf (file text : String) : Except LoadFault Value :=
  let text := String.ofList (unifyLines text.toList)
  if isYamlName file then (Yaml.read text).mapError .yaml else (Json.read text).mapError .json

def TakenForEmpty (file : String) (v : Value) : Prop :=
  isYamlName file = true ∧ v.isNothing = true

instance (file : String) (v : Value) : Decidable (TakenForEmpty file v) :=
  inferInstanceAs (Decidable (_ ∧ _))

theorem readFile_eq (file text : String) :
    readFile file text =
      (valueOf file text).map fun v => if TakenForEmpty file v then .mapping [] else v := by
  simp only [readFile, valueOf, TakenForEmpty]
  split
  case isTrue hyaml =>
    simp only [hyaml, true_and]
    cases Yaml.read (String.ofList (unifyLines text.toList)) <;> rfl
  case isFalse hjson =>
    simp only [hjson]
    cases Json.read (String.ofList (unifyLines text.toList)) <;> rfl

section
variable {folder : Folder} {file text : String} {v : Value}

theorem readEntries_of_takenForEmpty (hfile : folder.find? file = some (.file text))
    (hv : valueOf file text = .ok v) (h : TakenForEmpty file v) :
    readEntries folder file = .ok [] := by
  simp only [readEntries, hfile, readFile_eq, hv, Except.map, if_pos h]

theorem readEntries_of_mapping {kvs : List (Value × Value)}
    (hfile : folder.find? file = some (.file text))
    (hv : valueOf file text = .ok (.mapping kvs)) : readEntries folder file = .ok kvs := by
  by_cases h : TakenForEmpty file (.mapping kvs)
  · obtain rfl : kvs = [] := List.isEmpty_iff.1 h.2
    exact readEntries_of_takenForEmpty hfile hv h
  · simp only [readEntries, hfile, readFile_eq, hv, Except.map, if_neg h]

theorem readEntries_of_not_mapping (hfile : folder.find? file = some (.file text))
    (hv : valueOf file text = .ok v) (hno : v.isMapping = false) (h : ¬ TakenForEmpty file v) :
    readEntries folder file = .error (.option (.notMapping file)) := by
  simp only [readEntries, hfile, readFile_eq, hv, Except.map, if_neg h]
  cases v with
  | mapping kvs => cases hno
  | _ => rfl

theorem load_of_mapping {kvs : List (Value × Value)}
    (hfile : folder.find? file = some (.file text))
    (hv : valueOf file text = .ok (.mapping kvs)) (o : Options) :
    (load folder file o).2 ≠ .error (.option (.notMapping file)) := by
  rw [load_eq (readEntries_of_mapping hfile hv)]
  cases hset : (setAll file kvs o).2 with
  | ok _ => exact fun h => by cases h
  | error fault =>
    intro h
    cases h
    exact setAll_ne_notMapping file file kvs o hset

/-- A file whose value is no mapping is refused in both formats, and nothing is changed; only in
YAML a value that counts as nothing is loaded as an empty file is, and changes nothing either. No
other file is refused for this reason. -/
theorem load_not_mapping (hfile : folder.find? file = some (.file text))
    (hv : valueOf file text = .ok v) (o : Options) :
    (v.isMapping = false → load folder file o =
      (o, if TakenForEmpty file v then .ok () else .error (.option (.notMapping file)))) ∧
    ((load folder file o).2 = .error (.option (.notMapping file)) ↔
      v.isMapping = false ∧ ¬ TakenForEmpty file v) := by
  have hload (hno : v.isMapping = false) : load folder file o =
      (o, if TakenForEmpty file v then .ok () else .error (.option (.notMapping file))) := by
    by_cases h : TakenForEmpty file v
    · rw [load_eq (readEntries_of_takenForEmpty hfile hv h), if_pos h]
      rfl
    · rw [load, readEntries_of_not_mapping hfile hv hno h, if_neg h]
  refine ⟨hload, fun hrefused => ?_, fun h => by rw [hload h.1, if_neg h.2]⟩
  cases hno : v.isMapping with
  | true =>
    cases v with
    | mapping kvs => exact absurd hrefused (load_of_mapping hfile hv o)
    | _ => cases hno
  | false =>
    refine ⟨rfl, fun h => ?_⟩
    rw [hload hno, if_pos h] at hrefused
    cases hrefused

theorem load_yaml_list :
    load ⟨[("o.yaml", .file "[[]]")]⟩ "o.yaml" standard =
      (standard, .error (.option (.notMapping "o.yaml"))) := by
  have hread : (valueOf "o.yaml" "[[]]").toOption.map (fun v => (v.isMapping, v.isNothing)) =
      some (false, false) := by decide +kernel
  obtain ⟨v, hv, hshape⟩ := Stateful.exists_of_toOption_map hread
  obtain ⟨hno, hsome⟩ := Prod.mk.inj hshape
  have hkept : ¬ TakenForEmpty "o.yaml" v := fun h => by simp [TakenForEmpty, hsome] at h
  rw [(load_not_mapping (by decide +kernel) hv standard).1 hno, if_neg hkept]

/-- An empty list in YAML is loaded. -/
theorem load_yaml_emptyList :
    ¬ ∀ (folder : Folder) (file text : String) (v : Value) (o : Options),
      folder.find? file = some (.file text) → valueOf file text = .ok v → v.isMapping = false →
      v ≠ .null → load folder file o = (o, .error (.option (.notMapping file))) := by
  intro h
  have hread : (valueOf "o.yaml" "[]").toOption.map (fun v => (v.isMapping, v.typeName)) =
      some (false, "list") := by decide +kernel
  obtain ⟨v, hv, hshape⟩ := Stateful.exists_of_toOption_map hread
  obtain ⟨hno, hlist⟩ := Prod.mk.inj hshape
  have hnull : v ≠ .null := by
    rintro rfl
    exact absurd hlist (by decide)
  have hloaded : (load ⟨[("o.yaml", .file "[]")]⟩ "o.yaml" standard).2.isOk = true := by
    decide +kernel
  rw [h ⟨[("o.yaml", .file "[]")]⟩ "o.yaml" "[]" v standard (by decide +kernel) hv hno hnull]
    at hloaded
  cases hloaded

end

end Options
end Zeitnot
