/-!
Squares, numbered from a1 to h8 along the ranks, and sets of squares. A scan over squares runs from
the highest number to the lowest.
-/
set_option autoImplicit false

namespace Zeitnot.Chess

abbrev Square := Fin 64

namespace Square

/-- The square of a number, counted on from the first after the last. -/
def ofNat (n : Nat) : Square := ⟨n % 64, Nat.mod_lt n (by decide)⟩

def file (s : Square) : Nat := s.val % 8

def rank (s : Square) : Nat := s.val / 8

def at? (file rank : Int) : Option Square :=
  if h : 0 ≤ file ∧ file < 8 ∧ 0 ≤ rank ∧ rank < 8 then
    some ⟨(rank * 8 + file).toNat, by omega⟩
  else none

def step? (s : Square) (files ranks : Int) : Option Square :=
  at? (s.file + files) (s.rank + ranks)

def offset? (s : Square) (n : Int) : Option Square :=
  if h : 0 ≤ s.val + n ∧ s.val + n < 64 then some ⟨(s.val + n).toNat, by omega⟩ else none

def fileLetter (n : Nat) : Char := Char.ofNat (97 + n)

def rankLetter (n : Nat) : Char := Char.ofNat (49 + n)

def name (s : Square) : String := String.ofList [fileLetter s.file, rankLetter s.rank]

def ofChars? (f r : Char) : Option Square :=
  at? ((f.toNat : Int) - 97) ((r.toNat : Int) - 49)

def ofName? (s : String) : Option Square :=
  match s.toList with
  | [f, r] => ofChars? f r
  | _ => none

def isDark (s : Square) : Bool := (s.file + s.rank) % 2 == 0

def rayFrom (files ranks : Int) : (fuel : Nat) → Square → List Square
  | 0, _ => []
  | fuel + 1, s =>
    match s.step? files ranks with
    | some t => t :: rayFrom files ranks fuel t
    | none => []

structure Direction where
  files : Int
  ranks : Int
  deriving DecidableEq, Repr

def Direction.back (d : Direction) : Direction := ⟨-d.files, -d.ranks⟩

def alongFiles : List Direction := [⟨0, 1⟩, ⟨0, -1⟩]

def alongRanks : List Direction := [⟨1, 0⟩, ⟨-1, 0⟩]

def straight : List Direction := alongFiles ++ alongRanks

def diagonal : List Direction := [⟨1, 1⟩, ⟨-1, -1⟩, ⟨1, -1⟩, ⟨-1, 1⟩]

def directions : List Direction := straight ++ diagonal

def ray (s : Square) (d : Direction) : List Square := rayFrom d.files d.ranks 7 s

def raysTable (ds : List Direction) : Vector (List (List Square)) 64 :=
  Vector.ofFn fun s : Square => ds.map (ray s)

def straightRays : Vector (List (List Square)) 64 := raysTable straight

def diagonalRays : Vector (List (List Square)) 64 := raysTable diagonal

def rayTo? (s t : Square) : Option (List Square) :=
  (straightRays.get s ++ diagonalRays.get s).find? fun ray => ray.contains t

def between (s t : Square) : List Square :=
  match s.rayTo? t with
  | some ray => ray.takeWhile (· ≠ t)
  | none => []

/-- Whether `u` is on the line through `s` and `t`, which must be two squares of one line. -/
def onLine (s t u : Square) : Bool :=
  match directions.find? fun d => (s.ray d).contains t with
  | some d => u == s || (s.ray d).contains u || (s.ray d.back).contains u
  | none => false

def leaps (ds : List Direction) (s : Square) : List Square :=
  ds.filterMap fun d => s.step? d.files d.ranks

def knightLeaps : List Direction :=
  [⟨1, 2⟩, ⟨2, 1⟩, ⟨2, -1⟩, ⟨1, -2⟩, ⟨-1, -2⟩, ⟨-2, -1⟩, ⟨-2, 1⟩, ⟨-1, 2⟩]

def knightTargets : Vector (List Square) 64 := Vector.ofFn (leaps knightLeaps)

def kingTargets : Vector (List Square) 64 := Vector.ofFn (leaps directions)

def a1 : Square := 0
def c1 : Square := 2
def e1 : Square := 4
def g1 : Square := 6
def h1 : Square := 7
def a8 : Square := 56
def c8 : Square := 58
def e8 : Square := 60
def g8 : Square := 62
def h8 : Square := 63

example : e8.name = "e8" ∧ ofName? "h1" = some h1 ∧ ofName? "i1" = none := by decide +kernel

example : between e1 e8 = [12, 20, 28, 36, 44, 52] := by decide +kernel

end Square

structure SquareSet where
  bits : UInt64
  deriving DecidableEq, Repr

namespace SquareSet

def empty : SquareSet := ⟨0⟩

def contains (s : SquareSet) (q : Square) : Bool :=
  (s.bits >>> UInt64.ofNat q.val) &&& 1 != 0

def insert (s : SquareSet) (q : Square) : SquareSet :=
  ⟨s.bits ||| (1 <<< UInt64.ofNat q.val)⟩

def ofList (qs : List Square) : SquareSet := qs.foldl insert empty

def descendFrom (s : SquareSet) : (n : Nat) → n ≤ 64 → List Square
  | 0, _ => []
  | n + 1, h =>
    let rest := s.descendFrom n (by omega)
    if s.contains ⟨n, by omega⟩ then ⟨n, by omega⟩ :: rest else rest

def descending (s : SquareSet) : List Square :=
  if s.bits = 0 then [] else s.descendFrom 64 (by omega)

end SquareSet

def Square.descending : List Square := (List.finRange 64).reverse

def Square.sortDown (qs : List Square) : List Square := (SquareSet.ofList qs).descending

example : Square.sortDown [3, 60, 3, 17] = [60, 17, 3] := by decide +kernel

end Zeitnot.Chess
