import Zeitnot.Number.Binary64
/-!
The shortest decimal that reads back as a given number: the coarsest decimal grid with a point in
the interval of reals that round to the number, and the nearest such point of it.
-/
set_option autoImplicit false

namespace Zeitnot.Number

structure Decimal where
  digits : Nat
  exponent : Int
  deriving DecidableEq, Repr

/-- The grid of multiples of `10 ^ p` searched for a point that rounds to `m · 2 ^ q`, in units of
`2 ^ (q - 2)`; finer grids follow while there is none. -/
def Decimal.search (m : Nat) (q : Int) : (fuel : Nat) → (p : Int) → Decimal
  | 0, p => ⟨0, p⟩
  | fuel + 1, p =>
    let (gn, gd) := scaled 1 10 p
    let (un, ud) := scaled 1 2 (q - 2)
    let unit := un * gd
    let step := gn * ud
    let below := if m = Binary64.exponentWeight ∧ q ≠ Binary64.leastExponent then 1 else 2
    let low := (4 * m - below) * unit
    let mid := 4 * m * unit
    let high := (4 * m + 2) * unit
    let inside (f : Nat) : Bool :=
      if m % 2 = 0 then low ≤ f * step && f * step ≤ high else low < f * step && f * step < high
    let f := mid / step
    match inside f, inside (f + 1) with
    | true, false => ⟨f, p⟩
    | false, true => ⟨f + 1, p⟩
    | true, true =>
      let down := mid - f * step
      let up := (f + 1) * step - mid
      if down < up then ⟨f, p⟩ else if up < down then ⟨f + 1, p⟩ else ⟨f + f % 2, p⟩
    | false, false => Decimal.search m q fuel (p - 1)

def Decimal.shortest (m : Nat) (q : Int) : Decimal :=
  Decimal.search m q 24 (((Nat.log2 m : Int) + q) * 30103 / 100000 + 2)

structure RealLayout where
  /-- The least power of ten of the first digit that is written without an exponent. -/
  positionalFrom : Int
  /-- The first power of ten above that is written with one. -/
  positionalBelow : Int
  /-- Digits that an exponent has at least. -/
  exponentDigits : Nat
  nan : String
  infinity : String

/-- Numbers from `10 ^ -4` up to `10 ^ 16` are written without an exponent, whole ones with `.0`. -/
def RealLayout.plain : RealLayout := ⟨-4, 16, 2, "nan", "inf"⟩

def zerosText (n : Nat) : String := String.ofList (List.replicate n '0')

def RealLayout.decimalText (l : RealLayout) (d : Decimal) : String :=
  let ds := toString d.digits
  let point := ds.length + d.exponent
  if l.positionalFrom ≤ point - 1 ∧ point - 1 < l.positionalBelow then
    if point ≤ 0 then "0." ++ zerosText (-point).toNat ++ ds
    else if ds.length ≤ point.toNat then ds ++ zerosText (point.toNat - ds.length) ++ ".0"
    else
      String.ofList (ds.toList.take point.toNat) ++ "." ++
        String.ofList (ds.toList.drop point.toNat)
  else
    let head := String.ofList (ds.toList.take 1)
    let tail := String.ofList (ds.toList.drop 1)
    let power := toString (point - 1).natAbs
    head ++ (if tail.isEmpty then "" else "." ++ tail) ++ "e" ++
      (if point - 1 < 0 then "-" else "+") ++ zerosText (l.exponentDigits - power.length) ++ power

def realText (x : Float) (l : RealLayout := .plain) : String :=
  match Binary64.decode x with
  | .nan => l.nan
  | .infinite negative => (if negative then "-" else "") ++ l.infinity
  | .finite negative m q =>
    (if negative then "-" else "") ++ if m = 0 then "0.0" else l.decimalText (.shortest m q)

example : Decimal.shortest 1 (-1074) = ⟨5, -324⟩ := by decide +kernel

end Zeitnot.Number
