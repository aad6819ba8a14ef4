import Zeitnot.Chess.Fen
import Zeitnot.Proofs.Chess.GameLength
import Zeitnot.Proofs.Stateful
/-!
Castling rights are those of rooks that stand at home, in every position that is read from a text
and after every legal move. Therefore no king castles with itself: a legal move always leaves its
square, and its text is never that of the null move.
-/
set_option autoImplicit false

namespace Zeitnot.Chess
open Stateful

theorem file_onBackRank (side : Side) {file : Nat} (h : file < 8) :
    (Position.onBackRank side file).file = file := by
  cases side <;> simp only [Position.onBackRank, Square.ofNat, Square.file, Board.backRank] <;>
    omega

namespace Position
variable {p : Position} {m : Move} {piece : Piece}

def RooksAtHome (p : Position) : Prop :=
  ∀ side, ∀ s ∈ p.castlingRooks side, p.board.holds side .rook s = true

theorem mem_castlingRooks {side : Side} {s : Square} :
    s ∈ p.castlingRooks side ↔ ((p.rights.get side).h = true ∧ s = hRookHome side) ∨
      ((p.rights.get side).a = true ∧ s = aRookHome side) := by
  unfold castlingRooks
  cases (p.rights.get side).h <;> cases (p.rights.get side).a <;> simp

theorem file_of_mem_castlingRooks {side : Side} {s : Square} (h : s ∈ p.castlingRooks side) :
    (s.file = 0 ∨ s.file = 7) ∧ (s.rank = 0 ∨ s.rank = 7) := by
  rcases mem_castlingRooks.1 h with ⟨-, rfl⟩ | ⟨-, rfl⟩ <;> cases side <;> decide

/-! ### What a move leaves of the rights -/

theorem get_rightsAfter (side : Side) : (p.rightsAfter piece m).get side = Wings.none ∨
    (p.rightsAfter piece m).get side = untouched side m (p.rights.get side) := by
  unfold rightsAfter
  extract_lets rights
  have hrights : rights.get side = untouched side m (p.rights.get side) := by cases side <;> rfl
  have hset (other : Side) : (rights.set other Wings.none).get side = Wings.none ∨
      (rights.set other Wings.none).get side = untouched side m (p.rights.get side) := by
    rw [← hrights]
    cases other <;> cases side <;> simp [PerSide.get, PerSide.set]
  split
  · exact hset _
  · split
    · split
      · exact hset _
      · exact .inr hrights
    · exact .inr hrights

theorem untouched_of_mem {q : Position} {side : Side} {s : Square}
    (hq : q.rights = p.rightsAfter piece m) (h : s ∈ q.castlingRooks side) :
    s ∈ p.castlingRooks side ∧ s ≠ m.source ∧ s ≠ m.target := by
  rw [mem_castlingRooks, hq] at h
  rw [mem_castlingRooks]
  have hleft : (p.rightsAfter piece m).get side = Wings.none ∨
      (p.rightsAfter piece m).get side = untouched side m (p.rights.get side) :=
    get_rightsAfter side
  rcases hleft with hnone | hun
  · rw [hnone] at h
    simp [Wings.none] at h
  · rw [hun] at h
    simp only [untouched, Bool.and_eq_true, Bool.not_eq_true', Bool.or_eq_false_iff,
      beq_eq_false_iff_ne, ne_eq] at h
    rcases h with ⟨⟨hr, hsource, htarget⟩, rfl⟩ | ⟨⟨hr, hsource, htarget⟩, rfl⟩
    · exact ⟨.inl ⟨hr, rfl⟩, hsource, htarget⟩
    · exact ⟨.inr ⟨hr, rfl⟩, hsource, htarget⟩

/-- A move that takes a pawn in passing takes it from the rank on which pawns pass. -/
def TakesFairly (p : Position) (m : Move) : Prop :=
  p.isEnPassant m = true → ∀ s, p.passedPawn? m.target = some s → s.rank = passingRank p.turn

theorem get_boardAfter {s : Square} (hm : p.TakesFairly m) (hsource : s ≠ m.source)
    (htarget : s ≠ m.target) (hfile : s.file = 0 ∨ s.file = 7) (hrank : s.rank = 0 ∨ s.rank = 7) :
    (p.boardAfter piece m).get s = p.board.get s := by
  have hback {file : Nat} (h : file < 8) (h0 : file ≠ 0) (h7 : file ≠ 7) :
      onBackRank p.turn file ≠ s := by
    rintro rfl
    rw [file_onBackRank p.turn h] at hfile
    omega
  unfold boardAfter
  extract_lets b₀ b placed b₁
  have hb : b.get s = p.board.get s := by
    simp only [b]
    split
    · rename_i hc
      split
      · rename_i t ht
        have hne : t ≠ s := by
          rintro rfl
          have htr := hm hc.2.2 _ ht
          cases hturn : p.turn <;> simp only [hturn, passingRank] at htr <;> omega
        rw [Board.get_put, if_neg hne, Board.get_put, if_neg hsource.symm]
      · rw [Board.get_put, if_neg hsource.symm]
    · rw [Board.get_put, if_neg hsource.symm]
  split
  · -- King and rook of a castling come to stand on files between the corners.
    have hb₁ : b₁.get s = p.board.get s := by rw [Board.get_put, if_neg htarget.symm, hb]
    by_cases hf : m.target.file < m.source.file
    · simp only [hf, if_true, Board.get_put]
      rw [if_neg (hback (by omega) (by omega) (by omega)),
        if_neg (hback (by omega) (by omega) (by omega)), hb₁]
    · simp only [hf, if_false, Board.get_put]
      rw [if_neg (hback (by omega) (by omega) (by omega)),
        if_neg (hback (by omega) (by omega) (by omega)), hb₁]
  · rw [Board.get_put, if_neg htarget.symm, hb]

theorem holds_congr {b c : Board} {s : Square} (h : c.get s = b.get s) (side : Side) (kind : Kind) :
    c.holds side kind s = b.holds side kind s := by rw [Board.holds, Board.holds, h]

theorem TakesFairly.asRookStep (hm : p.TakesFairly m) : p.TakesFairly (p.asRookStep m) := by
  have hsource : (p.asRookStep m).source = m.source := by
    unfold Position.asRookStep
    extract_lets target
    split <;> rfl
  intro hpassing
  have hpawn : p.board.hasKind .pawn m.source = true := by
    simp only [isEnPassant, hsource, Bool.and_eq_true] at hpassing
    exact hpassing.1.1.2
  have hking : p.board.hasKind .king m.source = false := by
    cases hq : p.board.get m.source <;> simp_all [Board.hasKind]
  have heq : p.asRookStep m = m := by
    unfold Position.asRookStep
    rw [rookStep_of_no_king hking, if_pos rfl]
  rw [heq] at hpassing ⊢
  exact hm hpassing

theorem RooksAtHome.play (h : p.RooksAtHome) (hm : p.TakesFairly m) : (p.play m).RooksAtHome := by
  have hm := hm.asRookStep
  intro side s
  unfold Position.play
  generalize p.asRookStep m = m' at hm ⊢
  extract_lets fullmove passed
  split
  · exact fun hs => h side s hs
  · split
    · exact fun hs => h side s hs
    · rename_i piece _
      intro hs
      obtain ⟨hs, hsource, htarget⟩ : s ∈ p.castlingRooks side ∧ s ≠ m'.source ∧ s ≠ m'.target :=
        untouched_of_mem (show _ = p.rightsAfter piece m' from rfl) hs
      obtain ⟨hfile, hrank⟩ := file_of_mem_castlingRooks hs
      rw [holds_congr (get_boardAfter hm hsource htarget hfile hrank)]
      exact h side s hs

/-! ### What is known of every move that is generated -/

/-- A move that leaves its square, and takes no pawn in passing but from the rank for it. -/
structure Departs (p : Position) (m : Move) : Prop where
  source_ne : m.source ≠ m.target
  fairly : p.TakesFairly m

theorem departs_officer {s t : Square} (hk : p.board.hasKind .pawn s = false) (hne : s ≠ t) :
    p.Departs ⟨s, t, none⟩ :=
  ⟨hne, fun h => by simp [isEnPassant, hk] at h⟩

theorem departs_pawn {s t : Square} {pro : Option Kind} (hne : s ≠ t)
    (h : p.board.isEmpty t = false ∨ ((t.val : Int) - s.val).natAbs ≠ 7 ∧
      ((t.val : Int) - s.val).natAbs ≠ 9) : p.Departs ⟨s, t, pro⟩ := by
  refine ⟨hne, fun hp => ?_⟩
  simp only [isEnPassant, Bool.and_eq_true, Bool.or_eq_true, beq_iff_eq] at hp
  rcases h with hempty | hdiff
  · rw [hempty] at hp
    simp at hp
  · omega

/-- Where a king at home stands, the corner that it castles to, and where it goes. -/
inductive CastlingStep : Square → Square → Square → Prop
  | whiteShort : CastlingStep Square.e1 Square.h1 Square.g1
  | whiteLong : CastlingStep Square.e1 Square.a1 Square.c1
  | blackShort : CastlingStep Square.e8 Square.h8 Square.g8
  | blackLong : CastlingStep Square.e8 Square.a8 Square.c8

theorem kingStep_cases (b : Board) (s t : Square) :
    kingStep b s t = t ∨ CastlingStep s t (kingStep b s t) := by
  unfold kingStep
  split_ifs with h hh ha h' hh ha
  · rw [h.1, hh]
    exact .inr .whiteShort
  · rw [h.1, ha]
    exact .inr .whiteLong
  · exact .inl rfl
  · rw [h'.1, hh]
    exact .inr .blackShort
  · rw [h'.1, ha]
    exact .inr .blackLong
  · exact .inl rfl
  · exact .inl rfl

theorem ne_kingStep {king rook : Square} (h : king ≠ rook) : king ≠ kingStep p.board king rook := by
  rcases kingStep_cases p.board king rook with hrook | hstep
  · rwa [hrook]
  · generalize kingStep p.board king rook = target at hstep
    cases hstep <;> decide

theorem ne_of_ranksToGo_lt {side : Side} {s t : Square}
    (h : ranksToGo side t < ranksToGo side s) : s ≠ t := by
  rintro rfl
  omega

theorem isEmpty_of_isTheirs {s : Square} (h : p.isTheirs s = true) : p.board.isEmpty s = false := by
  obtain ⟨q, hq, -⟩ := hasSide_iff.1 h
  simp [Board.isEmpty, hq]

theorem Generated.departs (hp : p.RooksAtHome) (h : p.Generated m) : p.Departs m := by
  cases h with
  | officer hs hk ht =>
    refine departs_officer hk ?_
    rintro rfl
    rw [isOwn, hs] at ht
    cases ht
  | @castling king rook hk hrook =>
    refine departs_officer (hasKind_of_holds hk) (ne_kingStep ?_)
    -- The right is that of a rook at home, which cannot be the king.
    rintro rfl
    have hkind : p.board.hasKind .king king = (Kind.rook == Kind.king) :=
      hasKind_of_holds (hp p.turn _ hrook)
    rw [hasKind_of_holds hk] at hkind
    simp at hkind
  | capture _ ht htheirs _ =>
    have hlt := ranksToGo_lt_of_rank (rank_of_mem_pawnTargets ht)
    exact departs_pawn (ne_of_ranksToGo_lt hlt) (.inl (isEmpty_of_isTheirs htheirs))
  | advance _ ht _ =>
    refine departs_pawn (ne_of_ranksToGo_lt (ranksToGo_lt_of_val ht)) (.inr ?_)
    cases hturn : p.turn <;> simp only [hturn, Board.forward] at ht <;> omega
  | @enPassant s t _ hrank ht =>
    refine ⟨ne_of_ranksToGo_lt (ranksToGo_lt_of_passing ht), fun _ u hu => ?_⟩
    have hto := rank_of_mem_pawnTargets ht
    have hval := val_of_offset? hu
    cases hturn : p.turn <;>
      simp only [hturn, Side.other, Board.forward, Square.rank, passingRank] at * <;> omega

theorem departs_of_mem_legalMoves (hp : p.RooksAtHome) (h : m ∈ p.legalMoves) : p.Departs m :=
  (generated_of_mem_legalMoves h).departs hp

theorem mem_candidates_of_isLegal (hpiece : p.board.get m.source = some piece)
    (hkind : piece.kind = .pawn) (h : p.isLegal m = true) :
    m ∈ p.candidates (.of m) := by
  have hc : p.isCandidate m = true := by
    simp only [isLegal, Bool.and_eq_true] at h
    exact h.1
  cases hpro : m.promotion <;> simp [isCandidate, hpiece, hkind, hpro] at hc <;> exact hc.2.2

theorem fairly_of_isLegal (hp : p.RooksAtHome) (h : p.isLegal m = true) : p.TakesFairly m := by
  intro hpassing
  have hpawn : p.board.hasKind .pawn m.source = true := by
    simp only [isEnPassant, Bool.and_eq_true] at hpassing
    exact hpassing.1.1.2
  obtain ⟨piece, hpiece, hkind⟩ := hasKind_iff.1 hpawn
  have hgenerated := generated_of_mem_candidates (mem_candidates_of_isLegal hpiece hkind h)
  exact (hgenerated.departs hp).fairly hpassing

theorem fairly_null : p.TakesFairly .null := by
  intro h
  simp [isEnPassant, Move.null] at h

theorem fairly_of_readMove (hp : p.RooksAtHome) {t : String} (h : p.readMove t = .ok m) :
    p.TakesFairly m := by
  unfold readMove at h
  extract_lets illegal at h
  split at h
  · cases h
  · cases h
    exact fairly_null
  · simp only [illegal, reduceCtorEq] at h
  · extract_lets step at h
    by_cases hlegal : p.isLegal step = true
    · rw [if_pos hlegal] at h
      obtain rfl : step = m := Except.ok.inj h
      exact fairly_of_isLegal hp hlegal
    · rw [if_neg hlegal] at h
      simp only [illegal, reduceCtorEq] at h

/-! ### Where games come from -/

theorem holds_of_inPlace {b : Board} {side : Side} {w : Wings} :
    ((inPlace b side w).h = true → b.holds side .rook (hRookHome side) = true) ∧
      ((inPlace b side w).a = true → b.holds side .rook (aRookHome side) = true) := by
  unfold inPlace
  split
  · simp only [Bool.and_eq_true]
    exact ⟨fun h => h.2, fun h => h.2⟩
  · simp [Wings.none]

theorem rooksAtHome_of_inPlace {w w' : Wings}
    (h : p.rights = ⟨inPlace p.board .white w, inPlace p.board .black w'⟩) : p.RooksAtHome := by
  intro side s hs
  rw [mem_castlingRooks, h] at hs
  cases side <;> rcases hs with ⟨hr, rfl⟩ | ⟨hr, rfl⟩
  · exact holds_of_inPlace.1 hr
  · exact holds_of_inPlace.2 hr
  · exact holds_of_inPlace.1 hr
  · exact holds_of_inPlace.2 hr

theorem rooksAtHome_initial : Position.initial.RooksAtHome := by
  unfold RooksAtHome
  intro side
  cases side <;> decide +kernel

end Position

theorem Fen.rights_of_read {fen : String} {p : Position} (h : Fen.read fen = .ok p) :
    ∃ letters, p.rights =
      ⟨readRights p.board .white letters, readRights p.board .black letters⟩ := by
  unfold Fen.read at h
  extract_lets fields at h
  split at h
  · rename_i letters _ _ _
    obtain ⟨turn, -, h⟩ := bind_ok h
    extract_lets afterRights at h
    split at h
    · cases h
    · obtain ⟨enPassant, -, h⟩ := bind_ok h
      extract_lets afterHalfmoves at h
      obtain ⟨halfmoves, h⟩ : ∃ n, afterHalfmoves n = .ok p := by
        split at h
        · exact ⟨0, h⟩
        · obtain ⟨n, -, h⟩ := bind_ok h
          exact ⟨n, h⟩
      simp -zeta only [afterHalfmoves] at h
      extract_lets afterFullmove at h
      obtain ⟨fullmove, h⟩ : ∃ n, afterFullmove n = .ok p := by
        split at h
        · exact ⟨1, h⟩
        · obtain ⟨n, -, h⟩ := bind_ok h
          exact ⟨n, h⟩
      simp -zeta only [afterFullmove] at h
      extract_lets atBoard at h
      split at h
      · cases h
      · obtain ⟨rows, -, h⟩ := bind_ok h
        have hp := Except.ok.inj h
        refine ⟨letters, ?_⟩
        rw [← hp]
  · cases h

theorem Fen.rooksAtHome_read {fen : String} {p : Position} (h : Fen.read fen = .ok p) :
    p.RooksAtHome := by
  obtain ⟨letters, hrights⟩ := rights_of_read h
  exact Position.rooksAtHome_of_inPlace hrights

namespace Game

theorem rooksAtHome_pushAll {ts : List String} {g g' : Game} (hg : g.position.RooksAtHome)
    (h : pushAll ts g = .ok g') : g'.position.RooksAtHome := by
  induction ts generalizing g with
  | nil =>
    cases h
    exact hg
  | cons t ts ih =>
    rw [pushAll] at h
    cases hm : g.position.readMove t with
    | error fault =>
      simp only [hm] at h
      cases h
    | ok m =>
      simp only [hm] at h
      have hnext : (g.push m).position.RooksAtHome := by
        rw [position_push]
        exact hg.play (Position.fairly_of_readMove hg hm)
      exact ih hnext h

theorem rooksAtHome_push {g : Game} {m : Move} (hg : g.position.RooksAtHome)
    (hm : m ∈ g.legalMoves) : (g.push m).position.RooksAtHome := by
  rw [position_push]
  exact hg.play (Position.departs_of_mem_legalMoves hg hm).fairly

end Game

theorem Square.fileLetter_ne_zero (s : Square) : fileLetter s.file ≠ '0' := by
  revert s
  decide +kernel

theorem Move.text_ne_zeros {m : Move} (h : m.source ≠ m.target) : m.text ≠ "0000" := by
  have hnull : m.isNull = false := by
    simp only [isNull, beq_eq_false_iff_ne, ne_eq]
    rintro rfl
    exact h rfl
  intro htext
  have hfirst := congrArg (fun t => t.toList.head?) htext
  simp only [text, hnull, Bool.false_eq_true, if_false, Square.name, String.toList_append,
    String.toList_ofList, List.cons_append, List.head?_cons] at hfirst
  exact absurd (Option.some.inj hfirst) (Square.fileLetter_ne_zero m.source)

end Zeitnot.Chess
