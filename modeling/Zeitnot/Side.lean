set_option autoImplicit false

namespace Zeitnot

inductive Side
  | white
  | black
  deriving DecidableEq, Repr

def Side.other : Side → Side
  | .white => .black
  | .black => .white

@[simp] theorem Side.other_other (s : Side) : s.other.other = s := by cases s <;> rfl

def Side.name : Side → String
  | .white => "White"
  | .black => "Black"

structure PerSide (α : Type) where
  white : α
  black : α
  deriving DecidableEq, Repr

namespace PerSide
variable {α : Type}

def both (a : α) : PerSide α := ⟨a, a⟩

def get (p : PerSide α) : Side → α
  | .white => p.white
  | .black => p.black

def set (p : PerSide α) : Side → α → PerSide α
  | .white, a => { p with white := a }
  | .black, a => { p with black := a }

@[simp] theorem get_set (p : PerSide α) (s : Side) (a : α) : (p.set s a).get s = a := by
  cases s <;> rfl

@[simp] theorem get_other_set (p : PerSide α) (s : Side) (a : α) :
    (p.set s a).get s.other = p.get s.other := by cases s <;> rfl

end PerSide
end Zeitnot
