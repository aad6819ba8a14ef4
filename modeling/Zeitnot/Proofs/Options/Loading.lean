import Zeitnot.Proofs.Config.Mappings
import Zeitnot.Proofs.Options.History
set_option autoImplicit false

namespace Zeitnot
open Config Config.Value

namespace Setting

theorem parse_withValue (s : Setting) (v raw : Value) :
    ({ s with value := v } : Setting).parse raw = s.parse raw := by
  simp only [parse, checkRange]

theorem parse_reset (s : Setting) (raw : Value) : s.reset.parse raw = s.parse raw :=
  s.parse_withValue s.initial raw

/-- The setting with a value that it is given, if it takes it. -/
def given (s : Setting) : Option Value → Setting
  | none => s
  | some raw =>
    match s.parse raw with
    | .ok v => { s with value := v }
    | .error _ => s

theorem given_of_parse {s : Setting} {raw v : Value} (h : s.parse raw = .ok v) :
    s.given (some raw) = { s with value := v } := by
  rw [given, h]

@[simp] theorem name_given (s : Setting) (raw : Option Value) : (s.given raw).name = s.name := by
  unfold given; split <;> [rfl; (split <;> rfl)]

@[simp] theorem reset_given (s : Setting) (raw : Option Value) :
    (s.given raw).reset = s.reset := by
  unfold given; split <;> [rfl; (split <;> rfl)]

theorem given_given (s : Setting) (raw : Option Value) : (s.given raw).given raw = s.given raw := by
  cases raw with
  | none => rfl
  | some raw =>
    cases h : s.parse raw with
    | ok v =>
      rw [given_of_parse h, given_of_parse ((parse_withValue s v raw).trans h)]
    | error fault =>
      have hsame : s.given (some raw) = s := by rw [given, h]
      rw [hsame, hsame]

end Setting

namespace Options

/-- The table with all that a mapping gives for its settings, set at once. -/
def given (o : Options) (kvs : List (Value × Value)) : Options :=
  ⟨o.settings.map fun s => s.given ((mapping kvs).field? s.name)⟩

@[simp] theorem names_given (o : Options) (kvs : List (Value × Value)) :
    (o.given kvs).names = o.names := by
  simp [names, given, Function.comp_def]

@[simp] theorem reset_given (o : Options) (kvs : List (Value × Value)) :
    (o.given kvs).reset = o.reset := by
  simp [reset, given, Function.comp_def]

@[simp] theorem given_nil (o : Options) : o.given [] = o := by
  simp [given, field?, Setting.given]

theorem given_given (o : Options) (kvs : List (Value × Value)) :
    (o.given kvs).given kvs = o.given kvs := by
  simp only [given, List.map_map, Function.comp_def, Setting.name_given, Setting.given_given]

theorem given_perm {kvs kvs' : List (Value × Value)} (h : NamedOnce kvs) (hperm : kvs.Perm kvs')
    (o : Options) : o.given kvs' = o.given kvs := by
  simp only [given, field?_perm h hperm]

theorem find?_given (o : Options) (kvs : List (Value × Value)) (name : String) :
    (o.given kvs).find? name =
      (o.find? name).map (·.given ((mapping kvs).field? name)) := by
  simp only [find?, given, List.find?_map, Function.comp_def, Setting.name_given]
  cases h : o.settings.find? fun s => s.name == name with
  | none => rfl
  | some s =>
    have hname : s.name = name := name_of_find? h
    rw [Option.map_some, Option.map_some, hname]

theorem find?_reset (o : Options) (name : String) :
    o.reset.find? name = (o.find? name).map Setting.reset := by
  simp only [find?, reset, List.find?_map, Function.comp_def]
  rfl

theorem mem_names_iff {o : Options} {name : String} :
    name ∈ o.names ↔ ∃ s, o.find? name = some s := by
  rw [← Option.isSome_iff_exists, find?, List.find?_isSome]
  simp [names]

/-! ### Entries that are accepted -/

/-- An entry that names a setting and could be set on its own. -/
def Accepts (o : Options) (kv : Value × Value) : Prop :=
  ∃ name, kv.1 = .text name ∧ name ∈ o.names ∧ ∃ o', o.set name kv.2 = .ok o'

theorem accepts_iff {o : Options} {kv : Value × Value} :
    o.Accepts kv ↔
      ∃ name s v, kv.1 = .text name ∧ o.find? name = some s ∧ s.parse kv.2 = .ok v := by
  constructor
  · rintro ⟨name, hk, hmem, o', hset⟩
    obtain ⟨s, hs⟩ := mem_names_iff.1 hmem
    cases hp : s.parse kv.2 with
    | ok v => exact ⟨name, s, v, hk, hs, hp⟩
    | error fault =>
      simp only [set, hs, Setting.put, hp] at hset
      cases hset
  · rintro ⟨name, s, v, hk, hs, hp⟩
    refine ⟨name, hk, mem_names_iff.2 ⟨s, hs⟩, o.declare { s with value := v }, ?_⟩
    simp only [set, hs, Setting.put, hp]
    rfl

theorem accepts_congr {o o' : Options} (h : o.reset = o'.reset) (kv : Value × Value) :
    o.Accepts kv ↔ o'.Accepts kv := by
  have hreset (o : Options) : o.Accepts kv ↔ o.reset.Accepts kv := by
    simp only [accepts_iff, find?_reset, Option.map_eq_some_iff]
    constructor
    · rintro ⟨name, s, v, hk, hs, hp⟩
      exact ⟨name, s.reset, v, hk, ⟨s, hs, rfl⟩, (s.parse_reset kv.2).trans hp⟩
    · rintro ⟨name, _, v, hk, ⟨s, hs, rfl⟩, hp⟩
      exact ⟨name, s, v, hk, hs, (s.parse_reset kv.2).symm.trans hp⟩
  rw [hreset o, hreset o', h]

section
variable {o : Options} {file : String}

theorem setAll_cons_of_accepts (hn : o.names.Nodup) {name : String} {s : Setting} {raw v : Value}
    (hs : o.find? name = some s) (hp : s.parse raw = .ok v) (kvs : List (Value × Value)) :
    setAll file ((.text name, raw) :: kvs) o = setAll file kvs (o.withValue name v) := by
  have haccepts : o.Accepts (.text name, raw) := accepts_iff.2 ⟨name, s, v, rfl, hs, hp⟩
  obtain ⟨name', hk, -, o', hset⟩ := haccepts
  cases hk
  obtain ⟨s', v', hs', hp', rfl⟩ := set_ok hn hset
  rw [hs] at hs'
  cases hs'
  rw [hp] at hp'
  cases hp'
  simp only [setAll, hs, Option.isNone_some, Bool.false_eq_true, if_false, hset]

theorem setAll_cons_of_refused {bad : Value × Value} (h : ¬ o.Accepts bad) :
    ∃ fault, ∀ (o' : Options) (kvs : List (Value × Value)), o'.reset = o.reset →
      setAll file (bad :: kvs) o' = (o', .error fault) := by
  obtain ⟨k, raw⟩ := bad
  cases k with
  | text name =>
    cases hs : o.find? name with
    | none =>
      refine ⟨.unknownInFile name file, fun o' kvs hreset => ?_⟩
      have hnone : o'.find? name = none := by
        have := find?_reset o' name
        rwa [hreset, find?_reset, hs, Option.map_none, eq_comm, Option.map_eq_none_iff] at this
      simp [setAll, hnone]
    | some s =>
      cases hp : s.parse raw with
      | ok v => exact absurd (accepts_iff.2 ⟨name, s, v, rfl, hs, hp⟩) h
      | error fault =>
        refine ⟨fault, fun o' kvs hreset => ?_⟩
        obtain ⟨s', hs', hsame⟩ : ∃ s', o'.find? name = some s' ∧ s'.reset = s.reset := by
          have := find?_reset o' name
          rwa [hreset, find?_reset, hs, Option.map_some, eq_comm, Option.map_eq_some_iff] at this
        have hp' : s'.parse raw = .error fault := by
          rw [← s'.parse_reset, hsame, s.parse_reset, hp]
        have hset : o'.set name raw = .error fault := by
          simp only [set, hs', Setting.put, hp']
          rfl
        simp [setAll, hs', hset]
  | _ => exact ⟨_, fun _ _ _ => rfl⟩

theorem names_withValue (o : Options) (name : String) (v : Value) :
    (o.withValue name v).names = o.names := by
  rw [← names_reset, reset_withValue, names_reset]

theorem given_withValue (hn : o.names.Nodup) {name : String} {s : Setting} {raw v : Value}
    (hs : o.find? name = some s) (hp : s.parse raw = .ok v) {kvs : List (Value × Value)}
    (hk : ∀ v, (.text name, v) ∉ kvs) :
    (o.withValue name v).given kvs = o.given ((.text name, raw) :: kvs) := by
  simp only [given, withValue, List.map_map, Options.mk.injEq]
  refine List.map_congr_left fun t ht => ?_
  simp only [Function.comp_apply, field?_cons]
  by_cases hname : t.name = name
  · obtain rfl : t = s := eq_of_find? hn hs ht hname
    subst hname
    rw [if_pos rfl, if_pos (sameKey_text_iff.2 rfl), field?_eq_none_iff.2 hk,
      Setting.given_of_parse hp]
    rfl
  · have hkey : ¬ (Value.text name).sameKey (.text t.name) = true := fun h => by
      cases sameKey_text_iff.1 h
      exact hname rfl
    rw [if_neg hname, if_neg hkey]

theorem setAll_append_of_accepts (hn : o.names.Nodup) {kvs : List (Value × Value)}
    (hk : NamedOnce kvs) (h : ∀ kv ∈ kvs, o.Accepts kv) (rest : List (Value × Value)) :
    setAll file (kvs ++ rest) o = setAll file rest (o.given kvs) := by
  -- For every table: the entries after the first are set in the table that the first leaves.
  induction kvs generalizing o with
  | nil => rw [List.nil_append, given_nil]
  | cons kv kvs ih =>
    obtain ⟨k, raw⟩ := kv
    obtain ⟨hfirst, hrest⟩ := List.pairwise_cons.1 hk
    obtain ⟨name, s, v, rfl, hs, hp⟩ := accepts_iff.1 (h _ List.mem_cons_self)
    have haccepts : ∀ kv ∈ kvs, (o.withValue name v).Accepts kv := fun kv hkv =>
      (accepts_congr (reset_withValue o name v) kv).2 (h kv (List.mem_cons_of_mem _ hkv))
    rw [List.cons_append, setAll_cons_of_accepts hn hs hp,
      ih (by rwa [names_withValue]) hrest haccepts,
      given_withValue hn hs hp fun v hmem => hfirst _ hmem name rfl rfl]

theorem setAll_of_accepts (hn : o.names.Nodup) {kvs : List (Value × Value)} (hk : NamedOnce kvs)
    (h : ∀ kv ∈ kvs, o.Accepts kv) : setAll file kvs o = (o.given kvs, .ok ()) := by
  have hall : setAll file (kvs ++ []) o = _ := setAll_append_of_accepts hn hk h []
  rwa [List.append_nil] at hall

theorem accepts_or_first_refused (o : Options) (kvs : List (Value × Value)) :
    (∀ kv ∈ kvs, o.Accepts kv) ∨ ∃ before bad after, kvs = before ++ bad :: after ∧
      (∀ kv ∈ before, o.Accepts kv) ∧ ¬ o.Accepts bad := by
  classical
  cases h : kvs.find? fun kv => decide (¬ o.Accepts kv) with
  | none => exact .inl (by simpa using h)
  | some bad =>
    obtain ⟨hbad, before, after, hkvs, hbefore⟩ := List.find?_eq_some_iff_append.1 h
    exact .inr ⟨before, bad, after, hkvs, by simpa using hbefore, by simpa using hbad⟩

end

/-- The second table is the first with all the entries of a mapping set, and nothing else. -/
structure Takes (o : Options) (kvs : List (Value × Value)) (o' : Options) : Prop where
  names : o'.names = o.names
  set : ∀ {name raw}, (.text name, raw) ∈ kvs → ∃ s v, o.find? name = some s ∧
    s.parse raw = .ok v ∧ o'.find? name = some { s with value := v }
  kept : ∀ {name}, (∀ raw, (.text name, raw) ∉ kvs) → o'.find? name = o.find? name

theorem takes_given {o : Options} {kvs : List (Value × Value)} (hk : NamedOnce kvs)
    (h : ∀ kv ∈ kvs, o.Accepts kv) : o.Takes kvs (o.given kvs) := by
  refine ⟨names_given o kvs, fun {name raw} hmem => ?_, fun {name} hnone => ?_⟩
  · obtain ⟨_, s, v, hname, hs, hp⟩ := accepts_iff.1 (h _ hmem)
    cases hname
    refine ⟨s, v, hs, hp, ?_⟩
    rw [find?_given, hs, (field?_eq_some_iff hk).2 hmem, Option.map_some,
      Setting.given_of_parse hp]
  · rw [find?_given, field?_eq_none_iff.2 hnone]
    cases o.find? name <;> rfl

section
variable {folder : Folder} {file : String} {o : Options} {kvs : List (Value × Value)}

theorem load_eq (hread : readEntries folder file = .ok kvs) (o : Options) :
    load folder file o = ((setAll file kvs o).1, (setAll file kvs o).2.mapError .option) := by
  rw [load, hread]

theorem load_of_accepts (hread : readEntries folder file = .ok kvs) (hn : o.names.Nodup)
    (h : ∀ kv ∈ kvs, o.Accepts kv) : load folder file o = (o.given kvs, .ok ()) := by
  rw [load_eq hread, setAll_of_accepts hn (namedOnce_of_readEntries hread) h]
  rfl

theorem load_again (hread : readEntries folder file = .ok kvs) (hn : o.names.Nodup)
    (h : ∀ kv ∈ kvs, o.Accepts kv) :
    load folder file (o.given kvs) = (o.given kvs, .ok ()) := by
  have hagain : ∀ kv ∈ kvs, (o.given kvs).Accepts kv := fun kv hkv =>
    (accepts_congr (reset_given o kvs) kv).2 (h kv hkv)
  rw [load_of_accepts hread (by rwa [names_given]) hagain, given_given]

theorem load_of_refused (hread : readEntries folder file = .ok kvs) (hn : o.names.Nodup)
    {before after : List (Value × Value)} {bad : Value × Value}
    (hkvs : kvs = before ++ bad :: after) (hbefore : ∀ kv ∈ before, o.Accepts kv)
    (hbad : ¬ o.Accepts bad) :
    ∃ cause, load folder file o = (o.given before, .error (.option cause)) ∧
      setAll file [bad] o = (o, .error cause) := by
  obtain ⟨cause, hrefused⟩ := @setAll_cons_of_refused o file bad hbad
  have hk : NamedOnce kvs := namedOnce_of_readEntries hread
  have hk' : NamedOnce before := (List.pairwise_append.1 (hkvs ▸ hk)).1
  refine ⟨cause, ?_, hrefused o [] rfl⟩
  rw [load_eq hread, hkvs, setAll_append_of_accepts hn hk' hbefore,
    hrefused _ _ (reset_given o before)]
  rfl

theorem load_ok_iff (hread : readEntries folder file = .ok kvs) (hn : o.names.Nodup) :
    (load folder file o).2 = .ok () ↔ ∀ kv ∈ kvs, o.Accepts kv := by
  constructor
  · intro hok
    obtain h | ⟨before, bad, after, hkvs, hbefore, hbad⟩ := accepts_or_first_refused o kvs
    · exact h
    · obtain ⟨cause, hload, -⟩ := load_of_refused hread hn hkvs hbefore hbad
      rw [hload] at hok
      cases hok
  · intro h
    rw [load_of_accepts hread hn h]

theorem ofFile_ok_iff (hread : readEntries folder file = .ok kvs) {made : Options} :
    ofFile folder file = .ok made ↔
      (∀ kv ∈ kvs, standard.Accepts kv) ∧ made = standard.given kvs := by
  have hn : standard.names.Nodup := declared_standard.nodup
  rw [← load_ok_iff hread hn, ofFile]
  constructor
  · intro hmade
    cases hok : (load folder file standard).2 with
    | error fault =>
      simp only [hok] at hmade
      cases hmade
    | ok _ =>
      simp only [hok] at hmade
      cases hmade
      have hall := (load_ok_iff hread hn).1 hok
      exact ⟨rfl, congrArg Prod.fst (load_of_accepts hread hn hall)⟩
  · rintro ⟨hok, rfl⟩
    rw [load_of_accepts hread hn ((load_ok_iff hread hn).1 hok)]
    rfl

/-- A file is loaded with success exactly if each of its entries could be set on its own. Then all
of them are set, nothing else is changed, the order of the entries has no part in it, and loading
the file again changes nothing. Else the entries before the first that is refused are set, nothing
else is changed, and the fault is that of this entry. A table made from the file starts from the
initial values and is made only if all the entries could be set in it. -/
theorem load_up_to_first_refused (hn : o.names.Nodup)
    (hread : readEntries folder file = .ok kvs) :
    let o' := (load folder file o).1
    ((load folder file o).2 = .ok () ↔ ∀ kv ∈ kvs, o.Accepts kv) ∧
      ((load folder file o).2 = .ok () → o.Takes kvs o' ∧ load folder file o' = (o', .ok ()) ∧
        ∀ {folder' : Folder} {file' : String} {kvs' : List (Value × Value)},
          readEntries folder' file' = .ok kvs' → kvs.Perm kvs' →
          load folder' file' o = (o', .ok ())) ∧
      (∀ fault, (load folder file o).2 = .error fault →
        ∃ before bad after cause, kvs = before ++ bad :: after ∧
          (∀ kv ∈ before, o.Accepts kv) ∧ ¬ o.Accepts bad ∧ o.Takes before o' ∧
          fault = .option cause ∧ setAll file [bad] o = (o, .error cause)) ∧
      ((∃ made, ofFile folder file = .ok made) ↔ ∀ kv ∈ kvs, standard.Accepts kv) ∧
      ∀ made, ofFile folder file = .ok made → standard.Takes kvs made := by
  have hk : NamedOnce kvs := namedOnce_of_readEntries hread
  intro o'
  refine ⟨load_ok_iff hread hn, fun hok => ?_, fun fault hfault => ?_, ?_, fun made hmade => ?_⟩
  · have h := (load_ok_iff hread hn).1 hok
    have ho' : o' = o.given kvs := congrArg Prod.fst (load_of_accepts hread hn h)
    rw [ho']
    refine ⟨takes_given hk h, load_again hread hn h, fun hread' hperm => ?_⟩
    rw [load_of_accepts hread' hn fun kv hkv => h kv (hperm.mem_iff.2 hkv), given_perm hk hperm]
  · obtain h | ⟨before, bad, after, hkvs, hbefore, hbad⟩ := accepts_or_first_refused o kvs
    · rw [load_of_accepts hread hn h] at hfault
      cases hfault
    · obtain ⟨cause, hload, hcause⟩ := load_of_refused hread hn hkvs hbefore hbad
      have hk' : NamedOnce before := (List.pairwise_append.1 (hkvs ▸ hk)).1
      have ho' : o' = o.given before := congrArg Prod.fst hload
      rw [hload] at hfault
      cases hfault
      exact ⟨before, bad, after, cause, hkvs, hbefore, hbad, ho' ▸ takes_given hk' hbefore, rfl,
        hcause⟩
  · simp only [ofFile_ok_iff hread, exists_and_left, exists_eq, and_true]
  · obtain ⟨h, rfl⟩ := (ofFile_ok_iff hread).1 hmade
    exact takes_given hk h

theorem load_up_to_bad_bound :
    let text := "\x7b\"nodestime\": 600, \"Move Overhead\": 5001, \"Ponder\": true\x7d"
    let loaded := load ⟨[("o.json", .file text)]⟩ "o.json" standard
    loaded.1.timeSettings = ⟨10, 600, false⟩ ∧
      ∃ before bad after, standard.Takes before loaded.1 ∧ ¬ standard.Accepts bad ∧
        readEntries ⟨[("o.json", .file text)]⟩ "o.json" = .ok (before ++ bad :: after) := by
  intro text loaded
  have hread : (readEntries ⟨[("o.json", .file text)]⟩ "o.json").isOk = true := by decide +kernel
  have hfails : loaded.2.isOk = false := by decide +kernel
  obtain ⟨kvs, hkvs⟩ := Stateful.exists_of_isOk hread
  obtain ⟨-, -, hrefused, -⟩ := load_up_to_first_refused declared_standard.nodup hkvs
  refine ⟨by decide +kernel, ?_⟩
  cases hloaded : loaded.2 with
  | ok _ =>
    rw [hloaded] at hfails
    cases hfails
  | error fault =>
    obtain ⟨before, bad, after, _, rfl, -, hbad, htakes, -⟩ := hrefused fault hloaded
    exact ⟨before, bad, after, htakes, hbad, hkvs⟩

end

end Options
end Zeitnot
