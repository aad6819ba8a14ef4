import Zeitnot.Config.Load
import Zeitnot.Proofs.Options.Table
/-!
The history of a table of settings. Values are set, files are loaded, everything is reset, with
success or without: the settings and their order stay as they were declared, every value stays in
the domain of its setting, and a value is set under its own name or not at all.
-/
set_option autoImplicit false

namespace Zeitnot
open Config

namespace Setting

/-- A setting that holds a value of its kind: an integer between its bounds, or true or false. -/
def Fits (s : Setting) : Prop :=
  match s.kind with
  | .spin => ∃ least value greatest : Int, s.least = .int least ∧ s.value = .int value ∧
      s.greatest = .int greatest ∧ least ≤ value ∧ value ≤ greatest
  | .check => ∃ b, s.value = .bool b

theorem fits_spin (name : String) {initial least greatest : Int}
    (h : least ≤ initial ∧ initial ≤ greatest) : (spin name initial least greatest).Fits :=
  ⟨least, initial, greatest, rfl, rfl, rfl, h.1, h.2⟩

theorem fits_check (name : String) (initial : Bool) : (check name initial).Fits := ⟨initial, rfl⟩

theorem checkRange_ok {s : Setting} {least greatest i : Int} {v : Value}
    (hl : s.least = .int least) (hg : s.greatest = .int greatest) (h : s.checkRange i = .ok v) :
    v = .int i ∧ least ≤ i ∧ i ≤ greatest := by
  simp only [checkRange, hl, hg, Value.isNumber, Value.compareInt, Bool.not_true,
    Bool.false_eq_true, if_false, beq_iff_eq, Option.some.injEq, Int.compare_eq_lt,
    Int.compare_eq_gt] at h
  split at h
  · cases h
  · rename_i hlow
    split at h
    · cases h
    · rename_i hhigh
      cases h
      exact ⟨rfl, by omega, by omega⟩

theorem parse_ok {s : Setting} {raw v : Value} (h : s.parse raw = .ok v) :
    (s.kind = .spin ∧ ∃ i, s.checkRange i = .ok v) ∨ (s.kind = .check ∧ ∃ b, v = .bool b) := by
  unfold parse at h
  split at h
  · rename_i hk
    cases h
    exact .inr ⟨hk, _, rfl⟩
  · rename_i hk _
    dsimp only at h
    split at h
    · cases h
      exact .inr ⟨hk, true, rfl⟩
    · split at h
      · cases h
        exact .inr ⟨hk, false, rfl⟩
      · cases h
  · cases h
  · rename_i hk _
    split at h
    · cases h
    · exact .inl ⟨hk, _, h⟩

theorem Fits.parse {s : Setting} {raw v : Value} (h : s.Fits) (hp : s.parse raw = .ok v) :
    Fits { s with value := v } := by
  unfold Fits at h ⊢
  obtain ⟨hk, i, hi⟩ | ⟨hk, hb⟩ := parse_ok hp
  · simp only [hk] at h ⊢
    obtain ⟨least, -, greatest, hl, -, hg, -, -⟩ := h
    obtain ⟨rfl, hlow, hhigh⟩ := checkRange_ok hl hg hi
    exact ⟨least, i, greatest, hl, rfl, hg, hlow, hhigh⟩
  · simpa only [hk] using hb

end Setting

namespace Options

def withValue (o : Options) (name : String) (v : Value) : Options :=
  ⟨o.settings.map fun s => if s.name = name then { s with value := v } else s⟩

@[simp] theorem names_reset (o : Options) : o.reset.names = o.names := by
  simp [names, reset, Setting.reset, Function.comp_def]

@[simp] theorem reset_withValue (o : Options) (name : String) (v : Value) :
    (o.withValue name v).reset = o.reset := by
  have hvalue : ∀ s : Setting,
      (if s.name = name then { s with value := v } else s).reset = s.reset := by
    intro s
    split <;> rfl
  simp only [reset, withValue, List.map_map, Function.comp_def, hvalue]

theorem eq_of_find? {o : Options} {name : String} {s t : Setting} (hn : o.names.Nodup)
    (h : o.find? name = some s) (ht : t ∈ o.settings) (hname : t.name = name) : t = s :=
  List.inj_on_of_nodup_map hn ht (List.mem_of_find?_eq_some h) (hname.trans (name_of_find? h).symm)

theorem set_ok {o o' : Options} {name : String} {raw : Value} (hn : o.names.Nodup)
    (h : o.set name raw = .ok o') :
    ∃ s v, o.find? name = some s ∧ s.parse raw = .ok v ∧ o' = o.withValue name v := by
  unfold set at h
  cases hf : o.find? name with
  | none => rw [hf] at h; cases h
  | some s =>
    simp only [hf, Setting.put] at h
    cases hp : s.parse raw with
    | error fault => rw [hp] at h; cases h
    | ok v =>
      rw [hp] at h
      cases h
      refine ⟨s, v, rfl, hp, ?_⟩
      have hname : s.name = name := name_of_find? hf
      rw [declare, if_pos (by rw [hname, hf]; rfl), withValue, Options.mk.injEq]
      refine List.map_congr_left fun t ht => ?_
      by_cases hc : t.name = name
      · rw [if_pos (hc.trans hname.symm), if_pos hc, eq_of_find? hn hf ht hc]
      · rw [if_neg fun he => hc (he.trans hname), if_neg hc]

/-- A table that could be declared: no name is used twice, and every setting starts with a value
that fits it. -/
structure Declared (o : Options) : Prop where
  nodup : o.names.Nodup
  fits : ∀ s ∈ o.settings, s.Fits
  initial : o.reset = o

theorem declared_standard : standard.Declared := by
  refine ⟨by decide, ?_, rfl⟩
  simp only [standard, List.forall_mem_cons, List.not_mem_nil, false_imp_iff, implies_true,
    and_true]
  exact ⟨Setting.fits_spin _ (by decide), Setting.fits_spin _ (by decide), Setting.fits_check _ _⟩

/-- A table that differs from a declared one in its values alone, all of which fit. -/
structure Keeps (declared o : Options) : Prop where
  reset : o.reset = declared
  fits : ∀ s ∈ o.settings, s.Fits

section
variable {declared o : Options}

theorem Declared.keeps (hd : declared.Declared) : Keeps declared declared := ⟨hd.initial, hd.fits⟩

theorem Keeps.names (h : Keeps declared o) : o.names = declared.names := by
  rw [← h.reset, names_reset]

theorem Keeps.resetAll (hd : declared.Declared) (h : Keeps declared o) :
    Keeps declared o.reset := by
  rw [h.reset]
  exact hd.keeps

theorem Keeps.set (hd : declared.Declared) (h : Keeps declared o) {o' : Options} {name : String}
    {raw : Value} (hset : o.set name raw = .ok o') : Keeps declared o' := by
  have hn : o.names.Nodup := h.names ▸ hd.nodup
  obtain ⟨s, v, hfind, hparse, rfl⟩ := set_ok hn hset
  refine ⟨(reset_withValue o name v).trans h.reset, List.forall_mem_map.2 fun t ht => ?_⟩
  split
  · rename_i hname
    obtain rfl := eq_of_find? hn hfind ht hname
    exact (h.fits t ht).parse hparse
  · exact h.fits t ht

theorem Keeps.setAll (hd : declared.Declared) (h : Keeps declared o) (file : String)
    (entries : List (Value × Value)) : Keeps declared (setAll file entries o).1 := by
  fun_induction Options.setAll file entries o with
  | case1 o => exact h
  | case2 => exact h
  | case3 o value rest name hfind o' hset ih => exact ih (h.set hd hset)
  | case4 => exact h
  | case5 => exact h

theorem Keeps.load (hd : declared.Declared) (h : Keeps declared o) (folder : Folder)
    (file : String) : Keeps declared (load folder file o).1 := by
  unfold Options.load
  split
  · exact h
  · rename_i entries _
    exact h.setAll hd file entries

end

section
variable {declared o : Options}

theorem Keeps.perform (hd : declared.Declared) (h : Keeps declared o) (op : Operation) :
    Keeps declared (o.perform op).1 := by
  cases op with
  | set name raw =>
    simp only [Options.perform]
    cases hset : o.set name raw with
    | ok o' => exact h.set hd hset
    | error fault => exact h
  | reset => exact h.resetAll hd
  | load folder file => exact h.load hd folder file

theorem Keeps.after (hd : declared.Declared) (h : Keeps declared o) (ops : List Operation) :
    Keeps declared (o.after ops) := by
  induction ops generalizing o with
  | nil => exact h
  | cons op ops ih => exact ih (h.perform hd op)

end

/-- In every state of the table the names and all that was declared with them are as at the start,
and every value fits. Setting a value changes it to what the raw value says and changes nothing
else, or it fails and changes nothing. -/
theorem sound_through_history (ops : List Operation) :
    let o := standard.after ops
    o.names = standard.names ∧ o.reset = standard ∧ (∀ s ∈ o.settings, s.Fits) ∧
      ∀ name raw,
        match o.perform (.set name raw) with
        | (o', .ok ()) =>
          ∃ s v, o.find? name = some s ∧ s.parse raw = .ok v ∧ o' = o.withValue name v
        | (o', .error _) => o' = o := by
  intro o
  have h : Keeps standard o := declared_standard.keeps.after declared_standard ops
  refine ⟨h.names, h.reset, h.fits, fun name raw => ?_⟩
  simp only [perform]
  cases hset : o.set name raw with
  | ok o' => exact set_ok (h.names ▸ declared_standard.nodup) hset
  | error fault => rfl

end Options
end Zeitnot
