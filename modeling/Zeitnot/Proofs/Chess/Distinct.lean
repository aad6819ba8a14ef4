import Zeitnot.Proofs.Chess.CastlingRights
/-!
No legal move is generated twice. The two squares of a move show in which of the ways it is made,
and the moves of one way are told apart by their squares and promotions. A legal move ends on a
piece of its own side only where a king castles.
-/
set_option autoImplicit false

namespace Zeitnot.Chess

section
variable {α β : Type}

/-- Lists without repetitions can be strung together if every member shows where it comes from. -/
theorem nodup_flatMap_of_key {l : List α} {f : α → List β} (key : β → α) (hl : l.Nodup)
    (hf : ∀ a ∈ l, (f a).Nodup) (hkey : ∀ a ∈ l, ∀ b ∈ f a, key b = a) :
    (l.flatMap f).Nodup := by
  induction l with
  | nil => exact List.nodup_nil
  | cons a l ih =>
    obtain ⟨ha, hl⟩ := List.nodup_cons.1 hl
    rw [List.forall_mem_cons] at hf hkey
    rw [List.flatMap_cons]
    refine hf.1.append (ih hl hf.2 hkey.2) fun b hb hb' => ?_
    obtain ⟨a', ha', hb'⟩ := List.mem_flatMap.1 hb'
    rw [hkey.1 b hb |>.symm.trans (hkey.2 a' ha' b hb')] at ha
    exact ha ha'

theorem nodup_filterMap_of_key {l : List α} {f : α → Option β} (key : β → α) (hl : l.Nodup)
    (hkey : ∀ a ∈ l, ∀ b, f a = some b → key b = a) : (l.filterMap f).Nodup := by
  rw [List.filterMap_eq_flatMap_toList]
  refine nodup_flatMap_of_key key hl (fun a _ => ?_) fun a ha b hb => ?_
  · cases f a <;> simp
  · exact hkey a ha b (by simpa using hb)

end

inductive Way
  | officer
  | castling
  | capture
  | advance
  | doubleAdvance
  | passing
  deriving DecidableEq, Repr

def Way.all : List Way := [officer, castling, capture, advance, doubleAdvance, passing]

namespace Position
variable {p : Position} {scope : Scope} {m : Move} {s t : Square}

def candidatesBy (p : Position) (scope : Scope) : Way → List Move
  | .officer => p.pieceMoves scope
  | .castling => p.castlingMoves scope
  | .capture => p.pawnCaptures scope
  | .advance => p.singleAdvances scope
  | .doubleAdvance => p.doubleAdvances scope
  | .passing => p.enPassantMoves scope

theorem candidates_eq (p : Position) (scope : Scope) :
    p.candidates scope = Way.all.flatMap (p.candidatesBy scope) := by
  simp [candidates, candidatesBy, Way.all]

/-- The way in which a move must have been made. Only a king that castles goes to a square of its
own side, or to one that is not next to it. -/
def way (p : Position) (m : Move) : Way :=
  if p.isOwn m.target then .castling
  else if p.board.hasKind .pawn m.source then
    if p.isTheirs m.target then .capture
    else if (m.target.val : Int) = m.source.val + 8 * Board.forward p.turn then .advance
    else if (m.target.val : Int) = m.source.val + 16 * Board.forward p.turn then .doubleAdvance
    else .passing
  else if p.board.hasKind .king m.source &&
      !(Square.kingTargets.get m.source).contains m.target then .castling
  else .officer

structure MadeBy (p : Position) (scope : Scope) (w : Way) (m : Move) : Prop where
  source : scope.source m.source = true
  way : p.way m = w

theorem hasSide_of_isEmpty {b : Board} (h : b.isEmpty t = true) (side : Side) :
    b.hasSide side t = false := by
  simp only [Board.isEmpty, Option.isNone_iff_eq_none] at h
  simp [Board.hasSide, h]

theorem isOwn_of_isTheirs (h : p.isTheirs t = true) : p.isOwn t = false := by
  obtain ⟨piece, hpiece, hside⟩ := hasSide_iff.1 h
  simp only [isOwn, Board.hasSide, hpiece, hside]
  cases p.turn <;> rfl

theorem mem_kingTargets_of_mem_attacks (hk : p.board.hasKind .king s = true)
    (ht : t ∈ p.board.attacks s) : t ∈ Square.kingTargets.get s := by
  obtain ⟨piece, hpiece, hkind⟩ := hasKind_iff.1 hk
  simpa only [Board.attacks, hpiece, hkind] using ht

/-! ### What the moves of each way show -/

theorem madeBy_of_mem_pieceMoves (h : m ∈ p.pieceMoves scope) : p.MadeBy scope .officer m := by
  obtain ⟨s, t, -, hs, hpawn, hattacks, hfree, rfl⟩ := exists_of_mem_pieceMoves h
  have hking : (p.board.hasKind .king s && !(Square.kingTargets.get s).contains t) = false := by
    cases hk : p.board.hasKind .king s with
    | false => rfl
    | true => simpa using mem_kingTargets_of_mem_attacks hk hattacks
  refine ⟨hs, ?_⟩
  simp only [way, hfree, hpawn, hking, Bool.false_eq_true, if_false]

theorem kingStep_far (b : Board) (s t : Square) :
    kingStep b s t = t ∨ kingStep b s t ∉ Square.kingTargets.get s ∧
      1 < ((s.file : Int) - (kingStep b s t).file).natAbs := by
  refine (kingStep_cases b s t).imp_right fun hstep => ?_
  generalize kingStep b s t = target at hstep ⊢
  cases hstep <;> decide +kernel

theorem madeBy_of_mem_castlingMoves (hp : p.RooksAtHome) (h : m ∈ p.castlingMoves scope) :
    p.MadeBy scope .castling m := by
  obtain ⟨king, rook, hs, hking, hrook, rfl⟩ := exists_of_mem_castlingMoves h
  refine ⟨hs, ?_⟩
  have hkind (k : Kind) : p.board.hasKind k king = (Kind.king == k) := hasKind_of_holds hking
  rcases kingStep_far p.board king rook with honto | ⟨hfar, -⟩
  · have hown : p.isOwn rook = true := hasSide_of_holds (hp p.turn rook hrook)
    simp only [way, honto, hown, if_true]
  · cases hown : p.isOwn (kingStep p.board king rook) with
    | true => simp only [way, hown, if_true]
    | false => simp [way, hown, hkind, hfar]

theorem madeBy_of_mem_pawnCaptures (h : m ∈ p.pawnCaptures scope) :
    p.MadeBy scope .capture m := by
  obtain ⟨s, t, promotion, hs, -, htheirs, -, rfl⟩ := exists_of_mem_pawnCaptures h
  obtain ⟨-, hsource, hpawn⟩ := mem_ownPawns.1 hs
  refine ⟨hsource, ?_⟩
  simp only [way, isOwn_of_isTheirs htheirs, hpawn, htheirs, Bool.false_eq_true, if_false, if_true]

theorem way_of_isEmpty {promotion : Option Kind} (hs : p.board.hasKind .pawn s = true)
    (ht : p.board.isEmpty t = true) : p.way ⟨s, t, promotion⟩ =
      if (t.val : Int) = s.val + 8 * Board.forward p.turn then .advance
      else if (t.val : Int) = s.val + 16 * Board.forward p.turn then .doubleAdvance
      else .passing := by
  have hside (side : Side) : p.board.hasSide side t = false := hasSide_of_isEmpty ht side
  simp only [way, isOwn, isTheirs, hside, hs, Bool.false_eq_true, if_false, if_true]

theorem forward_ne_zero (side : Side) : Board.forward side ≠ 0 := by
  cases side <;> decide

theorem madeBy_of_mem_singleAdvances (h : m ∈ p.singleAdvances scope) :
    p.MadeBy scope .advance m := by
  obtain ⟨s, t, promotion, hs, hempty, hval, -, rfl⟩ := exists_of_mem_singleAdvances h
  obtain ⟨-, hsource, hpawn⟩ := mem_ownPawns.1 hs
  exact ⟨hsource, by rw [way_of_isEmpty hpawn hempty, if_pos hval]⟩

theorem madeBy_of_mem_doubleAdvances (h : m ∈ p.doubleAdvances scope) :
    p.MadeBy scope .doubleAdvance m := by
  obtain ⟨s, t, hs, hempty, hval, rfl⟩ := exists_of_mem_doubleAdvances h
  obtain ⟨-, hsource, hpawn⟩ := mem_ownPawns.1 hs
  have hforward := forward_ne_zero p.turn
  exact ⟨hsource, by rw [way_of_isEmpty hpawn hempty, if_neg (by omega), if_pos hval]⟩

theorem madeBy_of_mem_enPassantMoves (h : m ∈ p.enPassantMoves scope) :
    p.MadeBy scope .passing m := by
  obtain ⟨s, t, -, -, hempty, hs, -, htarget, rfl⟩ := exists_of_mem_enPassantMoves h
  obtain ⟨-, hsource, hpawn⟩ := mem_ownPawns.1 hs
  have hval := val_of_mem_pawnTargets htarget
  have hforward : Board.forward p.turn.other = -Board.forward p.turn := by cases p.turn <;> rfl
  have hone : Board.forward p.turn = 1 ∨ Board.forward p.turn = -1 := by
    cases p.turn <;> simp [Board.forward]
  refine ⟨hsource, ?_⟩
  rw [way_of_isEmpty hpawn hempty, if_neg (by omega), if_neg (by omega)]

theorem madeBy_of_mem_candidatesBy (hp : p.RooksAtHome) {w : Way}
    (h : m ∈ p.candidatesBy scope w) : p.MadeBy scope w m := by
  cases w with
  | officer => exact madeBy_of_mem_pieceMoves h
  | castling => exact madeBy_of_mem_castlingMoves hp h
  | capture => exact madeBy_of_mem_pawnCaptures h
  | advance => exact madeBy_of_mem_singleAdvances h
  | doubleAdvance => exact madeBy_of_mem_doubleAdvances h
  | passing => exact madeBy_of_mem_enPassantMoves h

theorem isCastling_of_mem_castlingMoves (hp : p.RooksAtHome) (h : m ∈ p.castlingMoves scope) :
    p.isCastling m = true := by
  obtain ⟨king, rook, -, hking, hrook, rfl⟩ := exists_of_mem_castlingMoves h
  have hkind : p.board.hasKind .king king = true := hasKind_of_holds hking
  simp only [isCastling, hkind, Bool.true_and, Bool.or_eq_true, decide_eq_true_eq]
  rcases kingStep_far p.board king rook with honto | ⟨-, hfar⟩
  · rw [honto]
    exact .inr (hp p.turn rook hrook)
  · exact .inl hfar

theorem exists_madeBy_of_mem_candidates (hp : p.RooksAtHome) (h : m ∈ p.candidates scope) :
    ∃ w, m ∈ p.candidatesBy scope w ∧ p.MadeBy scope w m := by
  rw [candidates_eq, List.mem_flatMap] at h
  obtain ⟨w, -, h⟩ := h
  exact ⟨w, h, madeBy_of_mem_candidatesBy hp h⟩

/-! ### The moves of one way are distinct -/

theorem nodup_ownPawns : (p.ownPawns scope).Nodup :=
  (Square.nodup_descending.filter _).filter _

theorem nodup_pawnMoves (s t : Square) : (pawnMoves s t).Nodup := by
  unfold pawnMoves
  split
  · refine List.Nodup.map (fun k k' h => ?_) (by decide)
    exact Option.some.inj (congrArg Move.promotion h)
  · exact List.nodup_singleton _

theorem nodup_pieceMoves : (p.pieceMoves scope).Nodup := by
  refine nodup_flatMap_of_key Move.source ((Square.nodup_descending.filter _).filter _)
    (fun s _ => (Square.nodup_sortDown _).map fun t t' h => congrArg Move.target h)
    fun s _ m hm => ?_
  obtain ⟨t, -, rfl⟩ := List.mem_map.1 hm
  rfl

theorem nodup_castlingRooks (p : Position) (side : Side) : (p.castlingRooks side).Nodup := by
  have hne : hRookHome side ≠ aRookHome side := by cases side <;> decide
  unfold castlingRooks
  split <;> split <;> simp [hne]

/-- The half of the board that a king castles into is that of the rook. -/
theorem file_kingStep_lt (b : Board) (s t : Square) :
    (kingStep b s t).file < 4 ↔ t.file < 4 := by
  rcases kingStep_cases b s t with hrook | hstep
  · rw [hrook]
  · generalize kingStep b s t = target at hstep ⊢
    cases hstep <;> decide

theorem nodup_castlingMoves : (p.castlingMoves scope).Nodup := by
  unfold castlingMoves
  extract_lets home kings
  split
  · exact List.nodup_nil
  · rename_i king hking
    refine nodup_filterMap_of_key
      (fun m => if m.target.file < 4 then aRookHome p.turn else hRookHome p.turn)
      ((p.nodup_castlingRooks p.turn).filter _) fun rook hrook m hm => ?_
    split at hm
    · obtain rfl := Option.some.inj hm
      simp only [file_kingStep_lt]
      rcases mem_castlingRooks.1 (List.mem_filter.1 hrook).1 with ⟨-, rfl⟩ | ⟨-, rfl⟩
      · rw [if_neg (by cases p.turn <;> decide)]
      · rw [if_pos (by cases p.turn <;> decide)]
    · cases hm

theorem nodup_pawnCaptures : (p.pawnCaptures scope).Nodup := by
  refine nodup_flatMap_of_key Move.source nodup_ownPawns (fun s _ => ?_) fun s _ m hm => ?_
  · refine nodup_flatMap_of_key Move.target (Square.nodup_sortDown _)
      (fun t _ => nodup_pawnMoves s t) fun t _ m hm => ?_
    obtain ⟨promotion, rfl, -⟩ := mem_pawnMoves hm
    rfl
  · obtain ⟨t, -, hm⟩ := List.mem_flatMap.1 hm
    obtain ⟨promotion, rfl, -⟩ := mem_pawnMoves hm
    rfl

theorem nodup_singleAdvances : (p.singleAdvances scope).Nodup := by
  refine nodup_flatMap_of_key Move.source nodup_ownPawns (fun s _ => ?_) fun s _ m hm => ?_
  · split
    · exact nodup_pawnMoves s _
    · exact List.nodup_nil
  · split at hm
    · obtain ⟨promotion, rfl, -⟩ := mem_pawnMoves hm
      rfl
    · cases hm

theorem nodup_doubleAdvances : (p.doubleAdvances scope).Nodup := by
  refine nodup_filterMap_of_key Move.source nodup_ownPawns fun s _ m hm => ?_
  split at hm
  · split at hm
    · rw [← Option.some.inj hm]
    · cases hm
  · cases hm

theorem nodup_enPassantMoves : (p.enPassantMoves scope).Nodup := by
  unfold enPassantMoves
  split
  · exact List.nodup_nil
  · split
    · exact List.nodup_nil
    · refine nodup_filterMap_of_key Move.source nodup_ownPawns fun s _ m hm => ?_
      split at hm
      · rw [← Option.some.inj hm]
      · cases hm

theorem nodup_candidatesBy (w : Way) : (p.candidatesBy scope w).Nodup := by
  cases w with
  | officer => exact nodup_pieceMoves
  | castling => exact nodup_castlingMoves
  | capture => exact nodup_pawnCaptures
  | advance => exact nodup_singleAdvances
  | doubleAdvance => exact nodup_doubleAdvances
  | passing => exact nodup_enPassantMoves

/-! ### All moves are distinct -/

theorem nodup_candidates (hp : p.RooksAtHome) : (p.candidates scope).Nodup := by
  rw [candidates_eq]
  exact nodup_flatMap_of_key p.way (by decide) (fun w _ => nodup_candidatesBy w)
    fun _ _ _ hm => (madeBy_of_mem_candidatesBy hp hm).way

/-- Captures in passing that answer a check are left out where they would be generated anyway. -/
theorem not_mem_enPassantMoves_butKings {target : Square → Bool} (ht : p.enPassant = some t)
    (hout : target t = false) : m ∉ p.enPassantMoves (scope.butKings p target) := by
  intro h
  obtain ⟨s, t', ht', htarget, -⟩ := exists_of_mem_enPassantMoves h
  obtain rfl : t = t' := Option.some.inj (ht.symm.trans ht')
  simp [Scope.butKings, hout] at htarget

theorem nodup_evasions (hp : p.RooksAtHome) {king : Square} {checkers : List Square}
    (hk : p.board.holds p.turn .king king = true) : (p.evasions king checkers scope).Nodup := by
  unfold evasions
  extract_lets slides swept kingMoves
  have hkings : kingMoves.Nodup ∧ ∀ m ∈ kingMoves, m.source = king := by
    simp only [kingMoves]
    split
    · refine ⟨(Square.nodup_sortDown _).map fun t t' h => congrArg Move.target h, fun m hm => ?_⟩
      obtain ⟨t, -, rfl⟩ := List.mem_map.1 hm
      rfl
    · exact ⟨List.nodup_nil, fun m hm => nomatch hm⟩
  split
  · rename_i checker
    extract_lets answer passing
    have hpassing : passing.Nodup ∧ ∀ m ∈ passing, m ∈ p.enPassantMoves scope ∧
        m ∉ p.enPassantMoves (scope.butKings p answer) := by
      simp only [passing]
      split
      · rename_i t ht
        split
        · rename_i hout
          exact ⟨nodup_enPassantMoves,
            fun m hm => ⟨hm, not_mem_enPassantMoves_butKings ht hout.2.1⟩⟩
        · exact ⟨List.nodup_nil, fun m hm => nomatch hm⟩
      · exact ⟨List.nodup_nil, fun m hm => nomatch hm⟩
    -- The king moves by itself, and all other candidates are moves of other pieces.
    have hothers : ∀ m ∈ p.candidates (scope.butKings p answer), m.source ≠ king := by
      rintro m hm rfl
      obtain ⟨w, -, hmade⟩ := exists_madeBy_of_mem_candidates hp hm
      have hsource := hmade.source
      simp only [Scope.butKings, Bool.and_eq_true, Bool.not_eq_true'] at hsource
      rw [hasKind_of_holds hk] at hsource
      exact absurd hsource.2 (by decide)
    have hpawns : ∀ m ∈ passing, m.source ≠ king := by
      rintro m hm rfl
      obtain ⟨s, t, -, -, -, hs, -, -, rfl⟩ := exists_of_mem_enPassantMoves (hpassing.2 m hm).1
      have hpawn := (mem_ownPawns.1 hs).2.2
      rw [hasKind_of_holds hk] at hpawn
      exact absurd hpawn (by decide)
    refine (hkings.1.append (nodup_candidates hp) fun m hm hm' => ?_).append hpassing.1
      fun m hm hm' => ?_
    · exact hothers m hm' (hkings.2 m hm)
    · rcases List.mem_append.1 hm with hm | hm
      · exact hpawns m hm' (hkings.2 m hm)
      · obtain ⟨hin, hout⟩ := hpassing.2 m hm'
        obtain ⟨w, hw, hmade⟩ := exists_madeBy_of_mem_candidates hp hm
        obtain rfl : w = .passing := hmade.way.symm.trans (madeBy_of_mem_enPassantMoves hin).way
        exact hout hw
  · exact hkings.1

theorem way_of_isOwn (h : p.isOwn m.target = true) : p.way m = .castling := by
  rw [way, if_pos h]

theorem isCastling_of_mem_candidates (hp : p.RooksAtHome) (h : m ∈ p.candidates scope)
    (hown : p.isOwn m.target = true) : p.isCastling m = true := by
  obtain ⟨w, hw, hmade⟩ := exists_madeBy_of_mem_candidates hp h
  obtain rfl : w = .castling := hmade.way.symm.trans (way_of_isOwn hown)
  exact isCastling_of_mem_castlingMoves hp hw

theorem isCastling_of_isOwn (hp : p.RooksAtHome) (h : m ∈ p.legalMoves)
    (hown : p.isOwn m.target = true) : p.isCastling m = true := by
  unfold legalMoves legalIn at h
  split at h
  · exact isCastling_of_mem_candidates hp h hown
  · have hm := (List.mem_filter.1 h).1
    split at hm
    · exact isCastling_of_mem_candidates hp hm hown
    · rcases of_mem_evasions hm with ⟨t, hfree, rfl⟩ | ⟨target, hm⟩ | hm
      · rw [hown] at hfree
        cases hfree
      · exact isCastling_of_mem_candidates hp hm hown
      · have hway := (madeBy_of_mem_enPassantMoves hm).way
        rw [way_of_isOwn hown] at hway
        cases hway

theorem nodup_legalMoves (hp : p.RooksAtHome) : p.legalMoves.Nodup := by
  unfold legalMoves legalIn
  split
  · exact nodup_candidates hp
  · rename_i king hking
    have hk : p.board.holds p.turn .king king = true := List.find?_some hking
    refine List.Nodup.filter _ ?_
    split
    · exact nodup_candidates hp
    · exact nodup_evasions hp hk

end Position
end Zeitnot.Chess
