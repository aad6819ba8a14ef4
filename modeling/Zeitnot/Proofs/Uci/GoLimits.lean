import Zeitnot.Proofs.Text.Numeral
import Zeitnot.Proofs.Uci.Segments
set_option autoImplicit false

namespace Zeitnot.Uci
open Text

/-! ### What segments give -/

namespace GoField

def get (l : Limits) : GoField → Int
  | time side => l.time.get side
  | inc side => l.inc.get side
  | movesToGo => l.movesToGo
  | depth => l.depth
  | nodes => l.nodes
  | moveTime => l.moveTime

@[simp] theorem get_unlimited (f : GoField) (now : Int) : f.get (.unlimited now) = 0 := by
  rcases f with (_ | _) | (_ | _) | _ | _ | _ | _ <;> rfl

@[simp] theorem get_set (f : GoField) (l : Limits) (i : Int) : f.get (f.set l i) = i := by
  rcases f with (_ | _) | (_ | _) | _ | _ | _ | _ <;> rfl

theorem get_set_of_ne {f g : GoField} (h : f ≠ g) (l : Limits) (i : Int) :
    f.get (g.set l i) = f.get l := by
  rcases f with (_ | _) | (_ | _) | _ | _ | _ | _ <;>
    rcases g with (_ | _) | (_ | _) | _ | _ | _ | _ <;> first | rfl | exact absurd rfl h

def values (f : GoField) : List Segment → List Int :=
  List.filterMap fun
    | .field g i => if g = f then some i else none
    | _ => none

theorem values_cons_self (f : GoField) (i : Int) (xs : List Segment) :
    f.values (.field f i :: xs) = i :: f.values xs := by simp [values]

theorem values_cons_of_ne {f g : GoField} (h : g ≠ f) (i : Int) (xs : List Segment) :
    f.values (.field g i :: xs) = f.values xs := by simp [values, h]

theorem getLastD_values_cons (f : GoField) (x : Segment) (xs : List Segment) (l : Limits) :
    (f.values (x :: xs)).getLastD (f.get l) = (f.values xs).getLastD (f.get (x.apply l)) := by
  cases x with
  | infinite => cases f <;> rfl
  | ponder => cases f <;> rfl
  | field g i =>
    by_cases h : g = f
    · rw [h, values_cons_self, List.getLastD_cons, Segment.apply, get_set]
    · rw [values_cons_of_ne h, Segment.apply, get_set_of_ne (Ne.symm h)]

end GoField

/-- Whether limits hold a word. A field is none. -/
def Segment.heldBy (l : Limits) : Segment → Bool
  | infinite => l.infinite
  | ponder => l.ponder
  | field _ _ => false

theorem Segment.heldBy_apply {w : Segment} (hw : ∀ f i, w ≠ .field f i) (l : Limits)
    (x : Segment) : w.heldBy (x.apply l) = true ↔ w.heldBy l = true ∨ w = x := by
  rcases w with _ | _ | ⟨f, i⟩
  case field => exact absurd rfl (hw f i)
  all_goals
    rcases x with _ | _ | ⟨_ | _ | _ | _ | _ | _, i⟩ <;> simp [heldBy, apply, GoField.set]

/-- Limits that segments give to a search that starts at `now`: of every field the last value, and
zero if there is none; of the two words, whether they are there. -/
structure Gives (now : Int) (xs : List Segment) (l : Limits) : Prop where
  value : ∀ f : GoField, f.get l = (f.values xs).getLastD 0
  infinite : l.infinite = true ↔ .infinite ∈ xs
  ponder : l.ponder = true ↔ .ponder ∈ xs
  nodesPerMs : l.nodesPerMs = 0
  startTime : l.startTime = now

section
variable (xs : List Segment) (l : Limits)

theorem get_foldl_apply (f : GoField) :
    f.get (xs.foldl Segment.apply l) = (f.values xs).getLastD (f.get l) := by
  induction xs generalizing l with
  | nil => rfl
  | cons x xs ih => rw [List.foldl_cons, ih, GoField.getLastD_values_cons]

theorem heldBy_foldl_apply {w : Segment} (hw : ∀ f i, w ≠ .field f i) :
    w.heldBy (xs.foldl Segment.apply l) = true ↔ w.heldBy l = true ∨ w ∈ xs := by
  induction xs generalizing l with
  | nil => simp
  | cons x xs ih => rw [List.foldl_cons, ih, Segment.heldBy_apply hw, List.mem_cons, or_assoc]

theorem foldl_apply_keeps : (xs.foldl Segment.apply l).nodesPerMs = l.nodesPerMs ∧
    (xs.foldl Segment.apply l).startTime = l.startTime := by
  induction xs generalizing l with
  | nil => exact ⟨rfl, rfl⟩
  | cons x xs ih =>
    rw [List.foldl_cons, (ih _).1, (ih _).2]
    rcases x with _ | _ | ⟨_ | _ | _ | _ | _ | _, i⟩ <;> exact ⟨rfl, rfl⟩

theorem gives_foldl_apply (now : Int) :
    Gives now xs (xs.foldl Segment.apply (.unlimited now)) where
  value f := by rw [get_foldl_apply, GoField.get_unlimited]
  infinite := (heldBy_foldl_apply xs _ (w := .infinite) nofun).trans (or_iff_right nofun)
  ponder := (heldBy_foldl_apply xs _ (w := .ponder) nofun).trans (or_iff_right nofun)
  nodesPerMs := (foldl_apply_keeps xs _).1
  startTime := (foldl_apply_keeps xs _).2

end

theorem eq_of_get_eq {l m : Limits} (hget : ∀ f : GoField, f.get l = f.get m)
    (hinfinite : l.infinite = m.infinite) (hponder : l.ponder = m.ponder)
    (hrate : l.nodesPerMs = m.nodesPerMs) (hstart : l.startTime = m.startTime) : l = m := by
  rcases l with ⟨⟨_, _⟩, ⟨_, _⟩, _⟩
  rcases m with ⟨⟨_, _⟩, ⟨_, _⟩, _⟩
  simp only [Limits.mk.injEq, PerSide.mk.injEq]
  exact ⟨⟨hget (.time .white), hget (.time .black)⟩, ⟨hget (.inc .white), hget (.inc .black)⟩,
    hget .movesToGo, hrate, hstart, hget .depth, hget .nodes, hget .moveTime, hinfinite, hponder⟩

theorem Gives.unique {now : Int} {xs ys : List Segment} {l m : Limits} (h : Gives now xs l)
    (h' : Gives now ys m) (hperm : xs.Perm ys)
    (hvalues : ∀ f : GoField, f.values xs = f.values ys) : l = m := by
  refine eq_of_get_eq (fun f => ?_) ?_ ?_ ?_ ?_
  · rw [h.value, h'.value, hvalues]
  · rw [Bool.eq_iff_iff, h.infinite, h'.infinite, hperm.mem_iff]
  · rw [Bool.eq_iff_iff, h.ponder, h'.ponder, hperm.mem_iff]
  · rw [h.nodesPerMs, h'.nodesPerMs]
  · rw [h.startTime, h'.startTime]

/-! ### Writing limits -/

def segmentsOf (l : Limits) : List Segment :=
  (if l.infinite then [.infinite] else []) ++ (if l.ponder then [.ponder] else []) ++
    GoField.all.map fun f => .field f (f.get l)

theorem values_segmentsOf (f : GoField) (l : Limits) : f.values (segmentsOf l) = [f.get l] := by
  unfold segmentsOf
  cases l.infinite <;> cases l.ponder <;> rcases f with (_ | _) | (_ | _) | _ | _ | _ | _ <;> rfl

theorem mem_segmentsOf_iff {w : Segment} (hw : ∀ f i, w ≠ .field f i) (l : Limits) :
    w ∈ segmentsOf l ↔ w.heldBy l = true := by
  unfold segmentsOf
  rcases w with _ | _ | ⟨f, i⟩
  case field => exact absurd rfl (hw f i)
  all_goals cases hi : l.infinite <;> cases hp : l.ponder <;> simp [Segment.heldBy, hi, hp]

theorem gives_of_perm {l : Limits} {xs : List Segment} (h : xs.Perm (segmentsOf l)) (now : Int) :
    Gives now xs { l with nodesPerMs := 0, startTime := now } where
  value f := by
    have hvalues : f.values xs = [f.get l] :=
      List.perm_singleton.1 (values_segmentsOf f l ▸ h.filterMap _)
    rw [hvalues]
    cases f <;> rfl
  infinite := (h.mem_iff.trans (mem_segmentsOf_iff (w := .infinite) nofun l)).symm
  ponder := (h.mem_iff.trans (mem_segmentsOf_iff (w := .ponder) nofun l)).symm
  nodesPerMs := rfl
  startTime := rfl

def Segment.Short : Segment → Prop
  | .field _ i => i.natAbs < 10 ^ digitLimit
  | _ => True

theorem short_of_mem_segmentsOf {l : Limits}
    (h : ∀ f : GoField, (f.get l).natAbs < 10 ^ digitLimit) {x : Segment}
    (hx : x ∈ segmentsOf l) : x.Short := by
  cases x with
  | infinite => trivial
  | ponder => trivial
  | field f i =>
    have hi : i ∈ f.values (segmentsOf l) := List.mem_filterMap.2 ⟨_, hx, if_pos rfl⟩
    rw [values_segmentsOf, List.mem_singleton] at hi
    rw [Segment.Short, hi]
    exact h f

theorem Segment.Short.spelled {x : Segment} (h : x.Short) : x.Spelled x.words := by
  cases x with
  | infinite => exact .infinite
  | ponder => exact .ponder
  | field f i => exact .field f (readInt_toString h)

theorem spelled_words {xs : List Segment} (h : ∀ x ∈ xs, x.Short) :
    Spelled xs (xs.flatMap Segment.words) := by
  induction xs with
  | nil => exact .nil
  | cons x xs ih =>
    obtain ⟨hx, hxs⟩ := List.forall_mem_cons.1 h
    exact .cons hx.spelled (ih hxs)

theorem words_of_mem_words {x : Segment} {w : String} (h : w ∈ x.words) : words w = [w] := by
  cases x with
  | infinite =>
    rw [List.mem_singleton.1 h]
    decide +kernel
  | ponder =>
    rw [List.mem_singleton.1 h]
    decide +kernel
  | field f i =>
    have hkeyword : words f.keyword = [f.keyword] := by
      rcases f with (_ | _) | (_ | _) | _ | _ | _ | _ <;> decide +kernel
    rcases List.mem_cons.1 h with rfl | h
    · exact hkeyword
    · rw [List.mem_singleton.1 h]
      exact words_toString i

def goLine (xs : List Segment) : String := unwords ("go" :: xs.flatMap Segment.words)

theorem words_goLine (xs : List Segment) : words (goLine xs) = "go" :: xs.flatMap Segment.words := by
  refine words_unwords fun w hw => ?_
  rcases List.mem_cons.1 hw with rfl | hw
  · decide +kernel
  · obtain ⟨x, -, hx⟩ := List.mem_flatMap.1 hw
    exact words_of_mem_words hx

/-! ### Reading a line -/

theorem readLimits_of_spelled {line : String} {xs : List Segment}
    (h : Spelled xs ((words line).drop 1)) (now : Int) :
    readLimits now line = .ok (xs.foldl Segment.apply (.unlimited now)) := by
  rw [readLimits, h.readSegments_eq]
  rfl

/-- A line is read exactly if the words after the first are those of segments, and then it has the
limits that these give; else it is refused at the first word at which no segment begins. Another
line has the same limits if its segments are the same in an order that keeps that of equal keywords.
Limits that are written as segments, in whatever order, are read back. -/
theorem readLimits_iff_spelled (now : Int) (line : String) :
    ((∃ l, readLimits now line = .ok l) ↔ ∃ xs, Spelled xs ((words line).drop 1)) ∧
      (∀ l xs, readLimits now line = .ok l → Spelled xs ((words line).drop 1) → Gives now xs l) ∧
      ((¬ ∃ xs, Spelled xs ((words line).drop 1)) → ∃ xs front rest fault,
        (words line).drop 1 = front ++ rest ∧ Spelled xs front ∧ Misspelled rest fault ∧
        readLimits now line = .error fault) ∧
      (∀ line' xs ys, Spelled xs ((words line).drop 1) → Spelled ys ((words line').drop 1) →
        xs.Perm ys → (∀ f : GoField, f.values xs = f.values ys) →
        readLimits now line' = readLimits now line) ∧
      ∀ l xs, (∀ f : GoField, (f.get l).natAbs < 10 ^ digitLimit) → xs.Perm (segmentsOf l) →
        readLimits now (goLine xs) = .ok { l with nodesPerMs := 0, startTime := now } := by
  refine ⟨⟨fun ⟨l, hl⟩ => ?_, fun ⟨xs, hxs⟩ => ⟨_, readLimits_of_spelled hxs now⟩⟩,
    fun l xs hl hxs => ?_, fun hnone => ?_, fun line' xs ys hxs hys hperm hvalues => ?_,
    fun l xs hshort hperm => ?_⟩
  · rcases readSegments_cases ((words line).drop 1) with ⟨xs, hxs, -⟩ | ⟨-, -, -, fault, -, -, -, hf⟩
    · exact ⟨xs, hxs⟩
    · rw [readLimits, hf] at hl
      cases hl
  · rw [readLimits_of_spelled hxs] at hl
    obtain rfl := Except.ok.inj hl
    exact gives_foldl_apply xs now
  · rcases readSegments_cases ((words line).drop 1) with
      ⟨xs, hxs, -⟩ | ⟨xs, front, rest, fault, hwords, hxs, hrest, hf⟩
    · exact absurd ⟨xs, hxs⟩ hnone
    · exact ⟨xs, front, rest, fault, hwords, hxs, hrest, by rw [readLimits, hf]; rfl⟩
  · rw [readLimits_of_spelled hxs, readLimits_of_spelled hys]
    exact congrArg Except.ok
      ((gives_foldl_apply xs now).unique (gives_foldl_apply ys now) hperm hvalues).symm
  · have hspelled : Spelled xs ((words (goLine xs)).drop 1) := by
      rw [words_goLine]
      exact spelled_words fun x hx => short_of_mem_segmentsOf hshort (hperm.mem_iff.1 hx)
    rw [readLimits_of_spelled hspelled]
    exact congrArg Except.ok
      ((gives_foldl_apply xs now).unique (gives_of_perm hperm now) (.refl xs) fun _ => rfl)

theorem readLimits_of_repeated :
    let line := "go movestogo +3 wtime -1_0 infinite wtime 5"
    let line' := "go  wtime -10 wtime 5 infinite movestogo 3"
    let xs : List Segment :=
      [.field .movesToGo 3, .field (.time .white) (-10), .infinite, .field (.time .white) 5]
    let ys : List Segment :=
      [.field (.time .white) (-10), .field (.time .white) 5, .infinite, .field .movesToGo 3]
    Spelled xs ((words line).drop 1) ∧ Spelled ys ((words line').drop 1) ∧ xs.Perm ys ∧
      (∀ f : GoField, f.values xs = f.values ys) ∧
      ∃ l, readLimits 7 line = .ok l ∧ readLimits 7 line' = .ok l ∧ l.time.white = 5 ∧
        l.movesToGo = 3 ∧ l.infinite = true ∧ l.ponder = false ∧
        readLimits 7 (goLine (segmentsOf l).reverse) = .ok l := by
  intro line line' xs ys
  have hline : (words line).drop 1 =
      ["movestogo", "+3", "wtime", "-1_0", "infinite", "wtime", "5"] := by decide +kernel
  have hline' : (words line').drop 1 =
      ["wtime", "-10", "wtime", "5", "infinite", "movestogo", "3"] := by decide +kernel
  have hxs : Spelled xs ((words line).drop 1) := hline ▸
    .cons (.field .movesToGo (by decide +kernel)) (.cons (.field (.time .white) (by decide +kernel))
      (.cons .infinite (.cons (.field (.time .white) (by decide +kernel)) .nil)))
  have hys : Spelled ys ((words line').drop 1) := hline' ▸
    .cons (.field (.time .white) (by decide +kernel))
      (.cons (.field (.time .white) (by decide +kernel))
        (.cons .infinite (.cons (.field .movesToGo (by decide +kernel)) .nil)))
  have hperm : xs.Perm ys := by decide
  have hvalues : ∀ f : GoField, f.values xs = f.values ys := by
    rintro ((_ | _) | (_ | _) | _ | _ | _ | _) <;> rfl
  obtain ⟨hread, hgives, -, hreorder, hwritten⟩ := readLimits_iff_spelled 7 line
  obtain ⟨l, hl⟩ := hread.2 ⟨xs, hxs⟩
  have hg : Gives 7 xs l := hgives l xs hl hxs
  have hshort : ∀ f : GoField, (f.get l).natAbs < 10 ^ digitLimit := fun f => by
    rw [hg.value]
    rcases f with (_ | _) | (_ | _) | _ | _ | _ | _ <;> decide +kernel
  have hback := hwritten l (segmentsOf l).reverse hshort (List.reverse_perm _)
  rw [show { l with nodesPerMs := 0, startTime := 7 } = l from
    eq_of_get_eq (fun f => by cases f <;> rfl) rfl rfl hg.nodesPerMs.symm hg.startTime.symm] at hback
  exact ⟨hxs, hys, hperm, hvalues, l, hl, (hreorder line' xs ys hxs hys hperm hvalues).trans hl,
    hg.value (.time .white), hg.value .movesToGo, hg.infinite.2 (by decide),
    Bool.eq_false_iff.2 fun hp => absurd (hg.ponder.1 hp) (by decide), hback⟩

end Zeitnot.Uci
