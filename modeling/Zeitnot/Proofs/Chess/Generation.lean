import Mathlib.Tactic
import Zeitnot.Chess.Game
import Zeitnot.Proofs.Chess.Squares
set_option autoImplicit false

namespace Zeitnot.Chess

theorem val_of_offset? {s t : Square} {n : Int} (h : s.offset? n = some t) :
    (t.val : Int) = s.val + n := by
  unfold Square.offset? at h
  split at h
  · obtain rfl := Option.some.inj h
    simp only
    omega
  · cases h

theorem val_of_at? {t : Square} {file rank : Int} (h : Square.at? file rank = some t) :
    (t.val : Int) = rank * 8 + file := by
  unfold Square.at? at h
  split at h
  · obtain rfl := Option.some.inj h
    simp only
    omega
  · cases h

theorem rank_of_at? {t : Square} {file rank : Int} (h : Square.at? file rank = some t) :
    (t.rank : Int) = rank := by
  unfold Square.at? at h
  split at h
  · obtain rfl := Option.some.inj h
    simp only [Square.rank]
    omega
  · cases h

theorem mem_pawnTargets {s t : Square} {side : Side} :
    t ∈ Board.pawnTargets side s ↔ s.step? (-1) (Board.forward side) = some t ∨
      s.step? 1 (Board.forward side) = some t := by
  simp [Board.pawnTargets, eq_comm]

theorem rank_of_mem_pawnTargets {s t : Square} {side : Side} (h : t ∈ Board.pawnTargets side s) :
    (t.rank : Int) = s.rank + Board.forward side := by
  rcases mem_pawnTargets.1 h with h | h <;> exact rank_of_at? h

theorem val_of_mem_pawnTargets {s t : Square} {side : Side} (h : t ∈ Board.pawnTargets side s) :
    (t.val : Int) = s.val + 8 * Board.forward side - 1 ∨
      (t.val : Int) = s.val + 8 * Board.forward side + 1 := by
  rcases mem_pawnTargets.1 h with h | h
  · have hval := val_of_at? h
    simp only [Square.file, Square.rank] at hval
    omega
  · have hval := val_of_at? h
    simp only [Square.file, Square.rank] at hval
    omega

namespace Position

theorem hasSide_iff {b : Board} {side : Side} {s : Square} :
    b.hasSide side s = true ↔ ∃ q, b.get s = some q ∧ q.side = side := by
  cases hq : b.get s <;> simp [Board.hasSide, hq]

theorem hasKind_iff {b : Board} {kind : Kind} {s : Square} :
    b.hasKind kind s = true ↔ ∃ q, b.get s = some q ∧ q.kind = kind := by
  cases hq : b.get s <;> simp [Board.hasKind, hq]

theorem holds_iff {b : Board} {side : Side} {kind : Kind} {s : Square} :
    b.holds side kind s = true ↔ ∃ q, b.get s = some q ∧ q.side = side ∧ q.kind = kind := by
  cases hq : b.get s <;> simp [Board.holds, Piece.isA, hq]

theorem hasSide_of_holds {b : Board} {side : Side} {kind : Kind} {s : Square}
    (h : b.holds side kind s = true) : b.hasSide side s = true := by
  obtain ⟨q, hq, hside, -⟩ := holds_iff.1 h
  exact hasSide_iff.2 ⟨q, hq, hside⟩

theorem hasKind_of_holds {b : Board} {side : Side} {kind kind' : Kind} {s : Square}
    (h : b.holds side kind s = true) : b.hasKind kind' s = (kind == kind') := by
  obtain ⟨q, hq, -, hkind⟩ := holds_iff.1 h
  simp [Board.hasKind, hq, hkind]

theorem rookStep_of_no_king {b : Board} {source : Square} (h : b.hasKind .king source = false)
    (target : Square) : rookStep b source target = target := by
  unfold rookStep
  split
  · rename_i hs
    rw [← hs.1, h] at hs
    simp at hs
  · split
    · rename_i hs
      rw [← hs.1, h] at hs
      simp at hs
    · rfl

variable {p : Position} {m : Move}

/-- A move that is generated: of an officer to a square without an own piece, of a king that
castles, and of a pawn by taking, by advancing, or in passing. -/
inductive Generated (p : Position) : Move → Prop
  | officer {s t : Square} : p.board.hasSide p.turn s = true →
    p.board.hasKind .pawn s = false → p.isOwn t = false → Generated p ⟨s, t, none⟩
  | castling {king rook : Square} : p.board.holds p.turn .king king = true →
    rook ∈ p.castlingRooks p.turn → Generated p ⟨king, kingStep p.board king rook, none⟩
  | capture {s t : Square} {promotion : Option Kind} : p.board.holds p.turn .pawn s = true →
    t ∈ Board.pawnTargets p.turn s → p.isTheirs t = true → promotion ≠ some .king →
    Generated p ⟨s, t, promotion⟩
  | advance {s t : Square} {promotion : Option Kind} : p.board.holds p.turn .pawn s = true →
    (t.val : Int) = s.val + 8 * Board.forward p.turn ∨
      (t.val : Int) = s.val + 16 * Board.forward p.turn →
    promotion ≠ some .king → Generated p ⟨s, t, promotion⟩
  | enPassant {s t : Square} : p.board.holds p.turn .pawn s = true →
    s.rank = passingRank p.turn → s ∈ Board.pawnTargets p.turn.other t → Generated p ⟨s, t, none⟩

theorem generated_king {s t : Square} (hs : p.board.holds p.turn .king s = true)
    (ht : p.isOwn t = false) : p.Generated ⟨s, t, none⟩ :=
  .officer (hasSide_of_holds hs) (hasKind_of_holds hs) ht

theorem mem_ownPawns {scope : Scope} {s : Square} : s ∈ p.ownPawns scope ↔
    p.board.hasSide p.turn s = true ∧ scope.source s = true ∧ p.board.hasKind .pawn s = true := by
  simp only [ownPawns, ownSquares, Board.squaresOf, Square.descending, List.mem_filter,
    List.mem_reverse, List.mem_finRange, true_and, Bool.and_eq_true]

theorem holds_of_mem_ownPawns {scope : Scope} {s : Square} (h : s ∈ p.ownPawns scope) :
    p.board.holds p.turn .pawn s = true := by
  obtain ⟨hside, -, hkind⟩ := mem_ownPawns.1 h
  obtain ⟨q, hq, hs⟩ := hasSide_iff.1 hside
  obtain ⟨q', hq', hk⟩ := hasKind_iff.1 hkind
  obtain rfl : q = q' := Option.some.inj (hq.symm.trans hq')
  exact holds_iff.2 ⟨q, hq, hs, hk⟩

theorem mem_pawnMoves {s t : Square} (h : m ∈ pawnMoves s t) :
    ∃ promotion, m = ⟨s, t, promotion⟩ ∧ promotion ≠ some .king := by
  unfold pawnMoves at h
  split at h
  · obtain ⟨k, hk, rfl⟩ := List.mem_map.1 h
    refine ⟨some k, rfl, ?_⟩
    rintro ⟨⟩
    simp at hk
  · exact ⟨none, List.mem_singleton.1 h, by simp⟩

theorem val_of_advance? {s t : Square} (h : p.advance? s = some t) :
    (t.val : Int) = s.val + 8 * Board.forward p.turn :=
  val_of_offset? (Option.filter_eq_some_iff.1 h).1

theorem exists_of_mem_pieceMoves {scope : Scope} (h : m ∈ p.pieceMoves scope) :
    ∃ s t, p.board.hasSide p.turn s = true ∧ scope.source s = true ∧
      p.board.hasKind .pawn s = false ∧ t ∈ p.board.attacks s ∧ p.isOwn t = false ∧
      m = ⟨s, t, none⟩ := by
  simp only [pieceMoves, ownSquares, Board.squaresOf, List.mem_flatMap, List.mem_filter,
    List.mem_map, Bool.and_eq_true, Bool.not_eq_true'] at h
  obtain ⟨s, ⟨⟨-, hside⟩, hs, hk⟩, t, ht, rfl⟩ := h
  obtain ⟨hattacks, hfree⟩ := List.mem_filter.1 (Square.mem_of_mem_sortDown ht)
  simp only [Bool.and_eq_true, Bool.not_eq_true'] at hfree
  exact ⟨s, t, hside, hs, hk, hattacks, hfree.1, rfl⟩

theorem generated_of_mem_pieceMoves {scope : Scope} (h : m ∈ p.pieceMoves scope) :
    p.Generated m := by
  obtain ⟨s, t, hs, -, hk, -, ht, rfl⟩ := exists_of_mem_pieceMoves h
  exact .officer hs hk ht

theorem exists_of_mem_castlingMoves {scope : Scope} (h : m ∈ p.castlingMoves scope) :
    ∃ king rook, scope.source king = true ∧ p.board.holds p.turn .king king = true ∧
      rook ∈ p.castlingRooks p.turn ∧ m = ⟨king, kingStep p.board king rook, none⟩ := by
  unfold castlingMoves at h
  extract_lets home kings at h
  split at h
  · simp at h
  · rename_i king hking
    obtain ⟨rook, hrook, hr⟩ := List.mem_filterMap.1 h
    have hmem := (List.mem_filter.1 (List.mem_of_getLast? hking)).2
    simp only [Bool.and_eq_true] at hmem
    have hholds : p.board.holds p.turn .king king = true := by
      cases hq : p.board.get king <;> simp_all [Board.holdsTrueKing, Board.holds]
    split at hr
    · exact ⟨king, rook, hmem.1.2, hholds, (List.mem_filter.1 hrook).1, (Option.some.inj hr).symm⟩
    · cases hr

theorem generated_of_mem_castlingMoves {scope : Scope} (h : m ∈ p.castlingMoves scope) :
    p.Generated m := by
  obtain ⟨king, rook, -, hking, hrook, rfl⟩ := exists_of_mem_castlingMoves h
  exact .castling hking hrook

theorem exists_of_mem_pawnCaptures {scope : Scope} (h : m ∈ p.pawnCaptures scope) :
    ∃ s t promotion, s ∈ p.ownPawns scope ∧ t ∈ Board.pawnTargets p.turn s ∧
      p.isTheirs t = true ∧ promotion ≠ some .king ∧ m = ⟨s, t, promotion⟩ := by
  simp only [pawnCaptures, List.mem_flatMap] at h
  obtain ⟨s, hs, t, ht, hm⟩ := h
  obtain ⟨promotion, rfl, hpro⟩ := mem_pawnMoves hm
  obtain ⟨htarget, htheirs⟩ := List.mem_filter.1 (Square.mem_of_mem_sortDown ht)
  simp only [Bool.and_eq_true] at htheirs
  exact ⟨s, t, promotion, hs, htarget, htheirs.1, hpro, rfl⟩

theorem generated_of_mem_pawnCaptures {scope : Scope} (h : m ∈ p.pawnCaptures scope) :
    p.Generated m := by
  obtain ⟨s, t, promotion, hs, htarget, htheirs, hpro, rfl⟩ := exists_of_mem_pawnCaptures h
  exact .capture (holds_of_mem_ownPawns hs) htarget htheirs hpro

theorem exists_of_mem_singleAdvances {scope : Scope} (h : m ∈ p.singleAdvances scope) :
    ∃ s t promotion, s ∈ p.ownPawns scope ∧ p.board.isEmpty t = true ∧
      (t.val : Int) = s.val + 8 * Board.forward p.turn ∧ promotion ≠ some .king ∧
      m = ⟨s, t, promotion⟩ := by
  obtain ⟨s, hs, h⟩ := List.mem_flatMap.1 h
  split at h
  · rename_i t ht
    have ht := (Option.filter_eq_some_iff.1 ht).1
    obtain ⟨promotion, rfl, hpro⟩ := mem_pawnMoves h
    exact ⟨s, t, promotion, hs, (Option.filter_eq_some_iff.1 ht).2, val_of_advance? ht, hpro, rfl⟩
  · simp at h

theorem generated_of_mem_singleAdvances {scope : Scope} (h : m ∈ p.singleAdvances scope) :
    p.Generated m := by
  obtain ⟨s, t, promotion, hs, -, hval, hpro, rfl⟩ := exists_of_mem_singleAdvances h
  exact .advance (holds_of_mem_ownPawns hs) (.inl hval) hpro

theorem exists_of_mem_doubleAdvances {scope : Scope} (h : m ∈ p.doubleAdvances scope) :
    ∃ s t, s ∈ p.ownPawns scope ∧ p.board.isEmpty t = true ∧
      (t.val : Int) = s.val + 16 * Board.forward p.turn ∧ m = ⟨s, t, none⟩ := by
  obtain ⟨s, hs, h⟩ := List.mem_filterMap.1 h
  split at h
  · rename_i t ht
    obtain ⟨u, hu, ht⟩ := Option.bind_eq_some_iff.1 ht
    have hval := val_of_advance? hu
    have hval' := val_of_advance? ht
    split at h
    · obtain rfl := Option.some.inj h
      exact ⟨s, t, hs, (Option.filter_eq_some_iff.1 ht).2, by omega, rfl⟩
    · cases h
  · cases h

theorem generated_of_mem_doubleAdvances {scope : Scope} (h : m ∈ p.doubleAdvances scope) :
    p.Generated m := by
  obtain ⟨s, t, hs, -, hval, rfl⟩ := exists_of_mem_doubleAdvances h
  exact .advance (holds_of_mem_ownPawns hs) (.inr hval) (by simp)

theorem exists_of_mem_enPassantMoves {scope : Scope} (h : m ∈ p.enPassantMoves scope) :
    ∃ s t, p.enPassant = some t ∧ scope.target t = true ∧ p.board.isEmpty t = true ∧
      s ∈ p.ownPawns scope ∧ s.rank = passingRank p.turn ∧
      s ∈ Board.pawnTargets p.turn.other t ∧ m = ⟨s, t, none⟩ := by
  unfold enPassantMoves at h
  split at h
  · simp at h
  · rename_i t hpassant
    split at h
    · simp at h
    · rename_i hopen
      simp only [not_or, Bool.not_eq_false] at hopen
      obtain ⟨s, hs, h⟩ := List.mem_filterMap.1 h
      split at h
      · rename_i hc
        simp only [Bool.and_eq_true, List.contains_iff_mem, beq_iff_eq] at hc
        exact ⟨s, t, hpassant, hopen.2.1, hopen.2.2, hs, hc.1, hc.2, (Option.some.inj h).symm⟩
      · cases h

theorem generated_of_mem_enPassantMoves {scope : Scope} (h : m ∈ p.enPassantMoves scope) :
    p.Generated m := by
  obtain ⟨s, t, -, -, -, hs, hrank, htarget, rfl⟩ := exists_of_mem_enPassantMoves h
  exact .enPassant (holds_of_mem_ownPawns hs) hrank htarget

theorem generated_of_mem_candidates {scope : Scope} (h : m ∈ p.candidates scope) :
    p.Generated m := by
  simp only [candidates, List.mem_append] at h
  rcases h with ((((h | h) | h) | h) | h) | h
  · exact generated_of_mem_pieceMoves h
  · exact generated_of_mem_castlingMoves h
  · exact generated_of_mem_pawnCaptures h
  · exact generated_of_mem_singleAdvances h
  · exact generated_of_mem_doubleAdvances h
  · exact generated_of_mem_enPassantMoves h

theorem of_mem_evasions {king : Square} {checkers : List Square} {scope : Scope}
    (h : m ∈ p.evasions king checkers scope) :
    (∃ t, p.isOwn t = false ∧ m = ⟨king, t, none⟩) ∨
      (∃ target, m ∈ p.candidates (scope.butKings p target)) ∨ m ∈ p.enPassantMoves scope := by
  unfold evasions at h
  extract_lets slides swept kingMoves at h
  have hking : m ∈ kingMoves → ∃ t, p.isOwn t = false ∧ m = ⟨king, t, none⟩ := by
    intro hm
    simp only [kingMoves] at hm
    split at hm
    · obtain ⟨t, ht, rfl⟩ := List.mem_map.1 hm
      have hfree := (List.mem_filter.1 (Square.mem_of_mem_sortDown ht)).2
      simp only [Bool.and_eq_true, Bool.not_eq_true'] at hfree
      exact ⟨t, hfree.1.1, rfl⟩
    · simp at hm
  split at h
  · extract_lets answer passing at h
    rcases List.mem_append.1 h with h | h
    · exact (List.mem_append.1 h).imp hking fun h => .inl ⟨answer, h⟩
    · simp only [passing] at h
      split at h
      · split at h
        · exact .inr (.inr h)
        · simp at h
      · simp at h
  · exact .inl (hking h)

theorem generated_of_mem_evasions {king : Square} {checkers : List Square} {scope : Scope}
    (hk : p.board.holds p.turn .king king = true) (h : m ∈ p.evasions king checkers scope) :
    p.Generated m := by
  rcases of_mem_evasions h with ⟨t, ht, rfl⟩ | ⟨target, h⟩ | h
  · exact generated_king hk ht
  · exact generated_of_mem_candidates h
  · exact generated_of_mem_enPassantMoves h

theorem generated_of_mem_legalMoves (h : m ∈ p.legalMoves) : p.Generated m := by
  unfold legalMoves legalIn at h
  split at h
  · exact generated_of_mem_candidates h
  · rename_i king hking
    have hk := List.find?_some hking
    have hm := (List.mem_filter.1 h).1
    split at hm
    · exact generated_of_mem_candidates hm
    · exact generated_of_mem_evasions hk hm

end Position
end Zeitnot.Chess
