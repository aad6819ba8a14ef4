import Zeitnot.Config.Load
import Zeitnot.Proofs.Stateful
set_option autoImplicit false

namespace Zeitnot
open Config

namespace Config.Value

theorem sameKey_text_iff {k : Value} {name : String} :
    k.sameKey (.text name) = true ↔ k = .text name := by
  cases k <;> simp [sameKey, toInt?]

def NamedOnce (kvs : List (Value × Value)) : Prop :=
  kvs.Pairwise fun a b => ∀ name, a.1 = .text name → b.1 ≠ .text name

theorem NamedOnce.perm {kvs kvs' : List (Value × Value)} (h : NamedOnce kvs)
    (hperm : kvs.Perm kvs') : NamedOnce kvs' :=
  (hperm.pairwise_iff fun hab name hb ha => hab name ha hb).1 h

theorem namedOnce_nil : NamedOnce [] := List.Pairwise.nil

/-! ### What a mapping has for a name -/

theorem field?_cons (k v : Value) (kvs : List (Value × Value)) (name : String) :
    (mapping ((k, v) :: kvs)).field? name =
      if k.sameKey (.text name) then some v else (mapping kvs).field? name := by
  simp only [field?, List.find?_cons]
  cases k.sameKey (.text name) <;> rfl

theorem field?_eq_none_iff {kvs : List (Value × Value)} {name : String} :
    (mapping kvs).field? name = none ↔ ∀ v, (.text name, v) ∉ kvs := by
  simp only [field?, Option.map_eq_none_iff, List.find?_eq_none, sameKey_text_iff, Prod.forall]
  constructor
  · intro h v hmem
    exact h _ _ hmem rfl
  · rintro h k v hmem rfl
    exact h v hmem

theorem field?_eq_some_iff {kvs : List (Value × Value)} (h : NamedOnce kvs) {name : String}
    {v : Value} : (mapping kvs).field? name = some v ↔ (.text name, v) ∈ kvs := by
  induction kvs with
  | nil => simp [field?]
  | cons kv kvs ih =>
    obtain ⟨k, w⟩ := kv
    obtain ⟨hfirst, hrest⟩ := List.pairwise_cons.1 h
    rw [field?_cons, List.mem_cons, Prod.mk.injEq, ← ih hrest]
    by_cases hk : k = .text name
    · subst hk
      have hnone : (mapping kvs).field? name = none :=
        field?_eq_none_iff.2 fun v hmem => hfirst _ hmem name rfl rfl
      simp [sameKey_text_iff.2 rfl, hnone, eq_comm]
    · rw [if_neg (mt sameKey_text_iff.1 hk)]
      simp [Ne.symm hk]

theorem field?_perm {kvs kvs' : List (Value × Value)} (h : NamedOnce kvs)
    (hperm : kvs.Perm kvs') (name : String) :
    (mapping kvs').field? name = (mapping kvs).field? name := by
  ext v
  rw [field?_eq_some_iff h, field?_eq_some_iff (h.perm hperm), hperm.mem_iff]

/-! ### Mappings that are read -/

theorem key_mem_putEntry {k v : Value} {kvs : List (Value × Value)} {kv : Value × Value}
    (h : kv ∈ putEntry k v kvs) : kv.1 = k ∨ ∃ old ∈ kvs, old.1 = kv.1 := by
  induction kvs with
  | nil => exact .inl (by rw [List.mem_singleton.1 h])
  | cons old kvs ih =>
    obtain ⟨k', v'⟩ := old
    rw [putEntry] at h
    split at h
    · obtain rfl | hmem := List.mem_cons.1 h
      · exact .inr ⟨_, List.mem_cons_self, rfl⟩
      · exact .inr ⟨kv, List.mem_cons_of_mem _ hmem, rfl⟩
    · obtain rfl | hmem := List.mem_cons.1 h
      · exact .inr ⟨_, List.mem_cons_self, rfl⟩
      · obtain hk | ⟨old, hold, hkey⟩ := ih hmem
        · exact .inl hk
        · exact .inr ⟨old, List.mem_cons_of_mem _ hold, hkey⟩

theorem NamedOnce.putEntry {kvs : List (Value × Value)} (h : NamedOnce kvs) (k v : Value) :
    NamedOnce (putEntry k v kvs) := by
  induction kvs with
  | nil => exact List.pairwise_singleton ..
  | cons old kvs ih =>
    obtain ⟨k', v'⟩ := old
    obtain ⟨hfirst, hrest⟩ := List.pairwise_cons.1 h
    rw [Value.putEntry]
    split
    case isTrue => exact List.pairwise_cons.2 ⟨hfirst, hrest⟩
    case isFalse hother =>
      refine List.pairwise_cons.2 ⟨fun kv hkv name hk' hkv' => ?_, ih hrest⟩
      obtain hk | ⟨old, hold, hkey⟩ := key_mem_putEntry hkv
      · exact hother (by rw [← hk, hkv']; exact sameKey_text_iff.2 hk')
      · exact hfirst old hold name hk' (hkey.trans hkv')

/-- What holds of a mapping in which every name stands once, and of whatever is no mapping. -/
def IsNamedOnce (v : Value) : Prop := ∀ kvs, v = .mapping kvs → NamedOnce kvs

end Config.Value
open Config.Value

namespace Config.Json

theorem isNamedOnce_word {s r : List Char} {v : Value} (h : word? s = some (v, r)) :
    v.IsNamedOnce := by
  rintro kvs rfl
  obtain ⟨⟨w, found⟩, hmem, hw⟩ := List.exists_of_findSome?_eq_some h
  simp only [Option.ite_none_right_eq_some, Option.some.injEq, Prod.mk.injEq] at hw
  obtain ⟨-, rfl, -⟩ := hw
  simp [words] at hmem

theorem isNamedOnce_of_members {fuel : Nat} {acc : List (Value × Value)} {s r : List Char}
    {v : Value} (hacc : NamedOnce acc) (h : members fuel acc s = .ok (v, r)) : v.IsNamedOnce := by
  induction fuel generalizing acc s with
  | zero => cases h
  | succ fuel ih =>
    unfold members at h
    split at h <;> try contradiction
    split at h <;> try contradiction
    split at h <;> try contradiction
    obtain ⟨⟨w, t⟩, hw, h⟩ := Stateful.bind_ok h
    simp only at h
    split at h
    · exact ih (hacc.putEntry _ _) h
    · cases h
      rintro _ ⟨⟩
      exact hacc.putEntry _ _
    · cases h

theorem not_mapping_of_elements {fuel : Nat} {acc : List Value} {s r : List Char}
    {v : Value} (h : elements fuel acc s = .ok (v, r)) : ∃ vs, v = .list vs := by
  induction fuel generalizing acc s with
  | zero => cases h
  | succ fuel ih =>
    unfold elements at h
    obtain ⟨⟨w, t⟩, hw, h⟩ := Stateful.bind_ok h
    simp only at h
    split at h
    · exact ih h
    · cases h
      exact ⟨_, rfl⟩
    · cases h

theorem number_not_mapping {s r : List Char} {v : Value} (h : number? s = some (.ok v, r))
    (kvs : List (Value × Value)) : v ≠ .mapping kvs := by
  rintro rfl
  unfold number? at h
  split at h
  extract_lets at h
  split at h
  · cases h
  · repeat' split at h
    all_goals cases h

theorem isNamedOnce_of_value {fuel : Nat} {s r : List Char} {v : Value}
    (h : value fuel s = .ok (v, r)) : v.IsNamedOnce := by
  cases fuel with
  | zero => cases h
  | succ fuel =>
    unfold value at h
    split at h
    · split at h <;> cases h
      rintro kvs ⟨⟩
    · split at h
      · cases h
        rintro kvs ⟨⟩
      · obtain ⟨vs, rfl⟩ := not_mapping_of_elements h
        rintro kvs ⟨⟩
    · split at h
      · cases h
        rintro _ ⟨⟩
        exact namedOnce_nil
      · exact isNamedOnce_of_members namedOnce_nil h
    · split at h
      case h_1 found hw =>
        cases h
        exact isNamedOnce_word hw
      · split at h
        case h_1 hn =>
          cases h
          exact fun kvs hkvs => absurd hkvs (number_not_mapping hn kvs)
        all_goals cases h

theorem isNamedOnce_of_read {text : String} {v : Value} (h : read text = .ok v) :
    v.IsNamedOnce := by
  unfold read at h
  extract_lets s at h
  split at h
  case h_1 hv =>
    split at h <;> cases h
    exact isNamedOnce_of_value hv
  case h_2 => cases h

end Config.Json

namespace Config.Yaml

theorem foldlM_keeps {α β ε : Type} {P : β → Prop} {f : β → α → Except ε β} {xs : List α}
    {b b' : β} (hf : ∀ {b a b'}, P b → f b a = .ok b' → P b') (hb : P b)
    (h : xs.foldlM f b = .ok b') : P b' := by
  induction xs generalizing b with
  | nil =>
    cases h
    exact hb
  | cons x xs ih =>
    rw [List.foldlM_cons] at h
    obtain ⟨c, hc, h⟩ := Stateful.bind_ok h
    exact ih (hf hb hc) h

theorem exists_of_mapError_map {α β ε ε' : Type} {x : Except ε α} {f : α → β} {g : ε → ε'} {b : β}
    (h : (x.map f).mapError g = .ok b) : ∃ a, b = f a := by
  cases x with
  | error e => cases h
  | ok a => exact ⟨a, (Except.ok.inj h).symm⟩

theorem timestamp_not_mapping {text : String} {v : Value} (h : timestampOf text = .ok v)
    (kvs : List (Value × Value)) : v ≠ .mapping kvs := by
  rintro rfl
  unfold timestampOf at h
  split at h
  · cases h
  · split at h
    all_goals
      obtain ⟨_, hv⟩ := exists_of_mapError_map h
      cases hv

theorem isNamedOnce_of_build {fuel : Nat} {n : Node} {v : Value} (h : build fuel n = .ok v) :
    v.IsNamedOnce := by
  rintro kvs rfl
  cases fuel with
  | zero => cases h
  | succ fuel =>
    unfold build at h
    extract_lets text entriesOf pairOf at h
    split at h
    case h_1 | h_14 => cases h
    case h_2 | h_8 | h_9 | h_10 | h_11 | h_13 =>
      obtain ⟨_, -, h⟩ := Stateful.bind_ok h
      cases h
    case h_3 | h_4 | h_5 | h_6 =>
      obtain ⟨_, -, h⟩ := Stateful.bind_ok h
      obtain ⟨_, -, h⟩ := Stateful.bind_ok h
      cases h
    case h_7 =>
      obtain ⟨s, -, h⟩ := Stateful.bind_ok h
      exact absurd rfl (timestamp_not_mapping h kvs)
    case h_12 =>
      obtain ⟨kvs', hkvs, h⟩ := Stateful.bind_ok h
      cases h
      dsimp only [entriesOf] at hkvs
      split at hkvs
      · obtain ⟨es, -, hfold⟩ := Stateful.bind_ok hkvs
        refine foldlM_keeps (fun hb hput => ?_) namedOnce_nil hfold
        split at hput
        · cases hput
        · obtain ⟨k, -, hput⟩ := Stateful.bind_ok hput
          obtain ⟨v, -, hput⟩ := Stateful.bind_ok hput
          cases hput
          exact hb.putEntry k v
      · cases hkvs

theorem isNamedOnce_of_read {text : String} {v : Value} (h : read text = .ok v) :
    v.IsNamedOnce := by
  obtain ⟨tokens, -, h⟩ := Stateful.bind_ok h
  obtain ⟨n?, -, h⟩ := Stateful.bind_ok h
  cases n? with
  | some n => exact isNamedOnce_of_build h
  | none =>
    cases h
    rintro kvs ⟨⟩

end Config.Yaml

theorem Options.namedOnce_of_readEntries {folder : Folder} {file : String}
    {kvs : List (Value × Value)} (h : readEntries folder file = .ok kvs) : NamedOnce kvs := by
  have hfile {text : String} {v : Value} (h : readFile file text = .ok v) : v.IsNamedOnce := by
    unfold readFile at h
    extract_lets text' at h
    split at h
    · split at h <;> cases h
      split
      · rintro _ ⟨⟩
        exact namedOnce_nil
      · exact Yaml.isNamedOnce_of_read ‹_›
    · cases hr : Json.read text' with
      | error fault =>
        rw [hr] at h
        cases h
      | ok v' =>
        rw [hr] at h
        cases h
        exact Json.isNamedOnce_of_read hr
  unfold readEntries at h
  split at h
  · cases h
  · cases h
  · split at h
    case h_2 hread =>
      cases h
      exact hfile hread kvs rfl
    all_goals cases h

end Zeitnot
