import Mathlib.Data.List.DropRight
import Mathlib.Tactic
import Zeitnot.Text.Blank
set_option autoImplicit false

namespace Zeitnot.Text

theorem wordsFrom_dropWhile (cs : List Char) :
    wordsFrom [] (cs.dropWhile isBlank) = wordsFrom [] cs := by
  induction cs with
  | nil => rfl
  | cons c cs ih =>
    rw [List.dropWhile_cons]
    split <;> rename_i hc
    · rw [ih, wordsFrom_blank hc]
    · rfl

theorem wordsFrom_of_blanks {bs : List Char} (h : ∀ b ∈ bs, isBlank b = true)
    (word : List Char) : wordsFrom word bs = if word.isEmpty then [] else [word.reverse] := by
  induction bs generalizing word with
  | nil => rfl
  | cons b bs ih =>
    have hnil : wordsFrom [] bs = [] := ih (fun c hc => h c (by simp [hc])) []
    rw [wordsFrom, if_pos (h b (by simp)), hnil]

theorem wordsFrom_append_blanks {bs : List Char} (h : ∀ b ∈ bs, isBlank b = true)
    (word cs : List Char) : wordsFrom word (cs ++ bs) = wordsFrom word cs := by
  induction cs generalizing word with
  | nil =>
    rw [List.nil_append, wordsFrom_of_blanks h]
    rfl
  | cons c cs ih => simp only [List.cons_append, wordsFrom, ih]

@[simp] theorem words_strip (s : String) : words (strip s) = words s := by
  have hsplit : (s.toList.dropWhile isBlank).rdropWhile isBlank ++
      (s.toList.dropWhile isBlank).rtakeWhile isBlank = s.toList.dropWhile isBlank :=
    List.rdropWhile_append_rtakeWhile
  have hblank : ∀ b ∈ (s.toList.dropWhile isBlank).rtakeWhile isBlank, isBlank b = true :=
    fun b hb => List.mem_rtakeWhile_imp hb
  have htrim : trim isBlank s.toList = (s.toList.dropWhile isBlank).rdropWhile isBlank := rfl
  rw [words, words, strip, String.toList_ofList, htrim,
    ← wordsFrom_append_blanks hblank [], hsplit, wordsFrom_dropWhile]

/-! ### Texts between blanks -/

theorem wordsFrom_append_blank {b : Char} (hb : isBlank b = true) (word cs ds : List Char) :
    wordsFrom word (cs ++ b :: ds) = wordsFrom word cs ++ wordsFrom [] ds := by
  induction cs generalizing word with
  | nil =>
    simp only [List.nil_append, wordsFrom, hb, if_true]
    cases word <;> rfl
  | cons c cs ih =>
    simp only [List.cons_append, wordsFrom, ih]
    split
    · split <;> rfl
    · rfl

theorem words_append_space (s t : String) : words (s ++ " " ++ t) = words s ++ words t := by
  have hlist : (s ++ " " ++ t).toList = s.toList ++ ' ' :: t.toList := by simp
  rw [words, hlist, wordsFrom_append_blank (by decide), List.map_append]
  rfl

theorem wordsFrom_of_forall_not {word cs : List Char} (hword : word ≠ [])
    (h : ∀ c ∈ cs, isBlank c = false) : wordsFrom word cs = [word.reverse ++ cs] := by
  induction cs generalizing word with
  | nil => simp [wordsFrom, hword]
  | cons c cs ih =>
    rw [wordsFrom, h c (by simp), if_neg Bool.false_ne_true,
      ih (List.cons_ne_nil c word) fun d hd => h d (by simp [hd])]
    simp

theorem words_of_forall_not {s : String} (hs : s ≠ "") (h : ∀ c ∈ s.toList, isBlank c = false) :
    words s = [s] := by
  cases hcs : s.toList with
  | nil => exact absurd (String.toList_injective (by rw [hcs]; rfl)) hs
  | cons c cs =>
    rw [hcs] at h
    rw [words, hcs, wordsFrom, h c (by simp), if_neg Bool.false_ne_true,
      wordsFrom_of_forall_not (List.cons_ne_nil c []) fun d hd => h d (by simp [hd])]
    simp [← hcs]

theorem words_unwords {ws : List String} (h : ∀ w ∈ ws, words w = [w]) :
    words (unwords ws) = ws := by
  induction ws with
  | nil => rfl
  | cons w ws ih =>
    obtain ⟨hw, hws⟩ := List.forall_mem_cons.1 h
    cases ws with
    | nil => exact hw
    | cons v vs =>
      rw [unwords, String.intercalate_cons_cons, words_append_space, hw]
      exact congrArg (w :: ·) (ih hws)

theorem wordsFrom_word {word : List Char} (h : word ≠ []) (cs : List Char) :
    ∃ ws, wordsFrom word cs = (word.reverse ++ cs.takeWhile (!isBlank ·)) :: ws := by
  induction cs generalizing word with
  | nil => exact ⟨[], by simp [wordsFrom, h]⟩
  | cons c cs ih =>
    cases hc : isBlank c with
    | true => exact ⟨wordsFrom [] cs, by simp [wordsFrom, hc, h]⟩
    | false =>
      obtain ⟨ws, hws⟩ := ih (List.cons_ne_nil c word)
      exact ⟨ws, by simpa [wordsFrom, hc] using hws⟩

theorem head_wordsFrom {cs w : List Char} {ws : List (List Char)}
    (hc : ∀ c ∈ cs.head?, isBlank c = false) (h : wordsFrom [] cs = w :: ws) :
    w = cs.takeWhile (!isBlank ·) := by
  cases cs with
  | nil => cases h
  | cons c cs =>
    have hcb : isBlank c = false := hc c rfl
    obtain ⟨ws', hws⟩ := wordsFrom_word (List.cons_ne_nil c []) cs
    rw [wordsFrom, hcb, if_neg Bool.false_ne_true, hws] at h
    obtain ⟨rfl, -⟩ := List.cons.inj h
    simp [hcb]

theorem isBlank_head_trim {s : List Char} {c : Char} (h : (trim isBlank s).head? = some c) :
    isBlank c = false := by
  have hprefix : trim isBlank s <+: s.dropWhile isBlank := List.rdropWhile_prefix ..
  obtain ⟨rest, hrest⟩ := hprefix
  obtain ⟨tail, htail⟩ := List.head?_eq_some_iff.1 h
  have hdrop : (s.dropWhile isBlank).head? = some c := by rw [← hrest, htail]; rfl
  have hnot := List.head?_dropWhile_not isBlank s
  rwa [hdrop] at hnot

theorem head_words_strip {s w : String} (h : (words s).head? = some w) :
    w.toList = (strip s).toList.takeWhile (!isBlank ·) := by
  rw [← words_strip, words, List.head?_map, Option.map_eq_some_iff] at h
  obtain ⟨cs, hcs, rfl⟩ := h
  obtain ⟨ws, hws⟩ := List.head?_eq_some_iff.1 hcs
  rw [String.toList_ofList]
  refine head_wordsFrom (fun c hc => ?_) hws
  rw [strip, String.toList_ofList] at hc
  exact isBlank_head_trim hc

theorem head_prefix_strip {s w : String} (h : (words s).head? = some w) :
    w.toList <+: (strip s).toList := by
  rw [head_words_strip h]
  exact List.takeWhile_prefix _

/-- Text without blanks at the start of a line is at the start of its first word. -/
theorem prefix_strip_iff {s w t : String} (h : (words s).head? = some w)
    (ht : ∀ c ∈ t.toList, isBlank c = false) :
    t.toList <+: (strip s).toList ↔ t.toList <+: w.toList := by
  refine ⟨fun hpre => ?_, fun hpre => hpre.trans (head_prefix_strip h)⟩
  obtain ⟨rest, hrest⟩ := hpre
  have hword : ∀ c ∈ t.toList, (!isBlank c) = true := fun c hc => by rw [ht c hc]; rfl
  rw [head_words_strip h, ← hrest, List.takeWhile_append_of_pos hword]
  exact List.prefix_append ..

end Zeitnot.Text
