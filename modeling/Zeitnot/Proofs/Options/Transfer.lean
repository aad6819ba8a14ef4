import Zeitnot.Proofs.Options.Loading
set_option autoImplicit false

namespace Zeitnot
open Config Config.Value Text

namespace Setting

def Legible (s : Setting) : Prop := ∀ i, s.value = .int i → i.natAbs < 10 ^ digitLimit

theorem Fits.parse_value {s : Setting} (h : s.Fits) (hl : s.Legible) :
    s.parse s.value = .ok s.value := by
  unfold Fits at h
  cases hk : s.kind with
  | spin =>
    simp only [hk] at h
    obtain ⟨least, i, greatest, hleast, hi, hgreatest, hbounds⟩ := h
    simp only [Setting.parse, hk, hi, plain_int, strip_toString, readInt_toString (hl i hi)]
    exact Options.checkRange_of_le hleast hgreatest hbounds
  | check =>
    simp only [hk] at h
    obtain ⟨b, hb⟩ := h
    simp only [Setting.parse, hk, hb]

theorem Fits.parse_plain {s : Setting} (h : s.Fits) (hl : s.Legible) :
    s.parse (.text s.value.plain) = .ok s.value := by
  unfold Fits at h
  cases hk : s.kind with
  | spin =>
    simp only [hk] at h
    obtain ⟨least, i, greatest, hleast, hi, hgreatest, hbounds⟩ := h
    simp only [Setting.parse, hk, hi, plain_text, plain_int, strip_toString,
      readInt_toString (hl i hi)]
    exact Options.checkRange_of_le hleast hgreatest hbounds
  | check =>
    simp only [hk] at h
    obtain ⟨b, hb⟩ := h
    have htrue : lower (strip "True") = "true" := by decide +kernel
    have hfalse : lower (strip "False") = "false" := by decide +kernel
    cases b <;> simp [Setting.parse, hk, hb, plain, literal, boolText, htrue, hfalse]

end Setting

namespace Options

/-- The entries that give every setting of a table what `raw` makes of it. -/
def entriesBy (raw : Setting → Value) (o : Options) : List (Value × Value) :=
  o.settings.map fun s => (.text s.name, raw s)

theorem namedOnce_entriesBy {o : Options} (hn : o.names.Nodup) (raw : Setting → Value) :
    NamedOnce (o.entriesBy raw) := by
  have hne : o.settings.Pairwise fun s t => s.name ≠ t.name := List.pairwise_map.1 hn
  refine List.pairwise_map.2 (hne.imp fun hst name hs ht => ?_)
  cases hs
  exact hst (Value.text.inj ht).symm

theorem find?_of_mem {o : Options} (hn : o.names.Nodup) {s : Setting} (hs : s ∈ o.settings) :
    o.find? s.name = some s := by
  obtain ⟨t, ht⟩ := mem_names_iff.1 (List.mem_map_of_mem hs)
  rw [ht, eq_of_find? hn ht hs rfl]

theorem given_reset {o : Options} {kvs : List (Value × Value)}
    (h : ∀ s ∈ o.settings, ∃ raw v, (mapping kvs).field? s.name = some raw ∧
      s.parse raw = .ok v) : o.reset.given kvs = o.given kvs := by
  simp only [given, reset, List.map_map, Options.mk.injEq]
  refine List.map_congr_left fun s hs => ?_
  obtain ⟨raw, v, hfield, hparse⟩ := h s hs
  have hreset : s.reset.given (some raw) = { s with value := v } :=
    Setting.given_of_parse ((s.parse_reset raw).trans hparse)
  rw [Function.comp_apply, show s.reset.name = s.name from rfl, hfield, hreset,
    Setting.given_of_parse hparse]

section
variable {o p : Options} {raw : Setting → Value} {kvs : List (Value × Value)}

/-- A table that is given what another one of the same declarations holds becomes this other. -/
theorem given_entriesBy (hn : o.names.Nodup) (hp : p.reset = o.reset)
    (hraw : ∀ s ∈ o.settings, s.parse (raw s) = .ok s.value) :
    p.given (o.entriesBy raw) = o := by
  have hk : NamedOnce (o.entriesBy raw) := namedOnce_entriesBy hn raw
  have hfield : ∀ s ∈ o.settings, (mapping (o.entriesBy raw)).field? s.name = some (raw s) :=
    fun s hs => (field?_eq_some_iff hk).2 (List.mem_map_of_mem hs)
  have hsame : ∀ s ∈ p.settings, ∃ t ∈ o.settings, t.reset = s.reset := fun s hs => by
    have hmem : s.reset ∈ o.reset.settings := hp ▸ List.mem_map_of_mem hs
    exact List.mem_map.1 hmem
  calc p.given (o.entriesBy raw)
      = p.reset.given (o.entriesBy raw) := by
        refine (given_reset fun s hs => ?_).symm
        obtain ⟨t, ht, hst⟩ := hsame s hs
        have hname : t.name = s.name := (Setting.mk.inj hst).1
        refine ⟨raw t, t.value, hname ▸ hfield t ht, ?_⟩
        rw [← s.parse_reset, ← hst, t.parse_reset, hraw t ht]
    _ = o.reset.given (o.entriesBy raw) := by rw [hp]
    _ = o.given (o.entriesBy raw) := given_reset fun s hs => ⟨_, _, hfield s hs, hraw s hs⟩
    _ = o := by
        have hown : ∀ s ∈ o.settings,
            s.given ((mapping (o.entriesBy raw)).field? s.name) = s := fun s hs => by
          rw [hfield s hs, Setting.given_of_parse (hraw s hs)]
        rw [given, List.map_congr_left hown, List.map_id']

theorem setAll_entriesBy (hn : o.names.Nodup) (hp : p.reset = o.reset)
    (hraw : ∀ s ∈ o.settings, s.parse (raw s) = .ok s.value) (hkvs : kvs.Perm (o.entriesBy raw))
    (file : String) : setAll file kvs p = (o, .ok ()) := by
  have hk : NamedOnce (o.entriesBy raw) := namedOnce_entriesBy hn raw
  have hnp : p.names.Nodup := by rwa [← names_reset, hp, names_reset]
  have haccepts : ∀ kv ∈ kvs, p.Accepts kv := fun kv hkv => by
    obtain ⟨s, hs, rfl⟩ := List.mem_map.1 (hkvs.mem_iff.1 hkv)
    exact (accepts_congr hp _).2
      (accepts_iff.2 ⟨s.name, s, s.value, rfl, find?_of_mem hn hs, hraw s hs⟩)
  rw [setAll_of_accepts hnp (hk.perm hkvs.symm) haccepts, ← given_perm (hk.perm hkvs.symm) hkvs,
    given_entriesBy hn hp hraw]

end

/-! ### Tables of the standard settings -/

theorem legible_of_keeps {o : Options} (h : Keeps standard o) : ∀ s ∈ o.settings, s.Legible := by
  intro s hs i hi
  have hlimit : 10000 < 10 ^ digitLimit :=
    lt_of_lt_of_le (by norm_num) (Nat.pow_le_pow_right (by norm_num) (by decide : 5 ≤ digitLimit))
  have hfits : s.Fits := h.fits s hs
  have hreset : s.reset ∈ standard.settings := h.reset ▸ List.mem_map_of_mem hs
  unfold Setting.Fits at hfits
  cases hk : s.kind with
  | check =>
    simp only [hk] at hfits
    obtain ⟨b, hb⟩ := hfits
    rw [hi] at hb
    cases hb
  | spin =>
    simp only [hk] at hfits
    obtain ⟨least, j, greatest, hleast, hj, hgreatest, hlow, hhigh⟩ := hfits
    obtain rfl : i = j := Value.int.inj (hi.symm.trans hj)
    have hbounds : least = 0 ∧ (greatest = 5000 ∨ greatest = 10000) := by
      simp only [standard, Setting.reset, Setting.spin, Setting.check, List.mem_cons,
        List.not_mem_nil, or_false, Setting.mk.injEq, hk, hleast, hgreatest, Value.int.injEq,
        reduceCtorEq, false_and, and_false] at hreset
      rcases hreset with ⟨-, -, -, rfl, rfl, -⟩ | ⟨-, -, -, rfl, rfl, -⟩ <;> simp
    omega

theorem setAll_values {o p : Options} (ho : Keeps standard o) (hp : p.reset = standard)
    {kvs : List (Value × Value)} (hkvs : kvs.Perm (o.entriesBy (·.value))) (file : String) :
    setAll file kvs p = (o, .ok ()) :=
  setAll_entriesBy (ho.names ▸ declared_standard.nodup) (hp.trans ho.reset.symm)
    (fun s hs => (ho.fits s hs).parse_value (legible_of_keeps ho s hs)) hkvs file

theorem setAll_texts {o p : Options} (ho : Keeps standard o) (hp : p.reset = standard)
    {kvs : List (Value × Value)} (hkvs : kvs.Perm (o.entriesBy (.text ·.value.plain)))
    (file : String) : setAll file kvs p = (o, .ok ()) :=
  setAll_entriesBy (ho.names ▸ declared_standard.nodup) (hp.trans ho.reset.symm)
    (fun s hs => (ho.fits s hs).parse_plain (legible_of_keeps ho s hs)) hkvs file

end Options
end Zeitnot
