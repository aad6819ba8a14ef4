import Zeitnot.Number.Fault
/-!
What a search knows of a game, and the value of a position at a depth: the best that the side to
move can reach, with nothing left out. `negamax` is the yardstick of the search that prunes.
-/
set_option autoImplicit false

namespace Zeitnot.Search

/-- A game of positions `P` and moves `M`, all values being those of the side to move. -/
structure Rules (P M : Type) where
  /-- Legal moves, in the order in which they are tried. -/
  moves : P → List M
  play : P → M → P
  isMate : P → Bool
  isDrawn : P → Bool
  evaluate : P → Int

/-- The value of a mate on the spot; one that takes longer is worth less. -/
def mateValue : Int := 100000

def matedAt (ply : Nat) : Int := -mateValue + ply

section
variable {P M : Type} (rules : Rules P M)

def Rules.terminal? (p : P) (ply : Nat) : Option Int :=
  if rules.isMate p then some (matedAt ply) else if rules.isDrawn p then some 0 else none

theorem Rules.terminal?_eq_none_iff {p : P} {ply : Nat} :
    rules.terminal? p ply = none ↔ rules.isMate p = false ∧ rules.isDrawn p = false := by
  cases hm : rules.isMate p <;> cases hd : rules.isDrawn p <;> simp [terminal?, hm, hd]

/-- The greatest of some values, and of `least` if there are none. -/
def greatestOr (least : Int) : List Int → Int
  | [] => least
  | [v] => v
  | v :: w :: vs => max v (greatestOr least (w :: vs))

/-- The value of a position that is searched to a depth, without pruning. -/
def negamax : (depth : Nat) → (ply : Nat) → P → Int
  | 0, ply, p => (rules.terminal? p ply).getD (rules.evaluate p)
  | depth + 1, ply, p =>
    match rules.terminal? p ply with
    | some v => v
    | none =>
      greatestOr (-mateValue - 1)
        ((rules.moves p).map fun m => -negamax depth (ply + 1) (rules.play p m))

def moveValue (root : P) (depth : Nat) (m : M) : Int :=
  -negamax rules (depth - 1) 1 (rules.play root m)

/-- The value of a root at a depth of at least one: the best of its moves. Whether the game is over
at the root itself is not asked. -/
def rootValue (root : P) (depth : Nat) : Int :=
  greatestOr (-mateValue - 1) ((rules.moves root).map (moveValue rules root depth))

end
end Zeitnot.Search
