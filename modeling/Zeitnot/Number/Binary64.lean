import Zeitnot.Number.Rounding
/-!
Binary64 numbers taken apart and put together: a finite number is `± m · 2 ^ q`, and a quotient
of integers has a nearest number. Everything here is exact arithmetic on natural numbers.
-/
set_option autoImplicit false

namespace Zeitnot.Number.Binary64

inductive Decoded
  | nan
  | infinite (negative : Bool)
  /-- The number `± significand · 2 ^ exponent`. -/
  | finite (negative : Bool) (significand : Nat) (exponent : Int)
  deriving DecidableEq, Repr

def signWeight : Nat := Nat.pow 2 63

def exponentWeight : Nat := Nat.pow 2 52

/-- The exponent field of the infinities and the NaNs. -/
def topField : Nat := 2047

def leastExponent : Int := -1074

def decodeBits (bits : Nat) : Decoded :=
  let negative := signWeight ≤ bits
  let field := bits / exponentWeight % (topField + 1)
  let fraction := bits % exponentWeight
  if field = topField then
    if fraction = 0 then .infinite negative else .nan
  else if field = 0 then .finite negative fraction leastExponent
  else .finite negative (fraction + exponentWeight) (leastExponent + field - 1)

def decode (x : Float) : Decoded := decodeBits x.toBits.toNat

/-- Bits of the number nearest to `n / d`, a tie going to the even significand. A significand
that rounds up to the next power of two carries into the exponent field. -/
def nearestBits (n d : Nat) : Nat :=
  if n = 0 then 0
  else
    let k : Int := (Nat.log2 n : Int) - Nat.log2 d
    let (a, b) := scaled d 2 k
    let e := max (if n * b < a then k - 53 else k - 52) leastExponent
    let (s, t) := scaled n 2 (-e)
    min ((e - leastExponent).toNat * exponentWeight + roundHalfEven s (d * t))
      (topField * exponentWeight)

def ofQuotient (negative : Bool) (n d : Nat) : Float :=
  Float.ofBits (UInt64.ofNat ((if negative then signWeight else 0) + nearestBits n d))

def ofInt (i : Int) : Float := ofQuotient (i < 0) i.natAbs 1

/-- The first power of two that rounds to no finite number. -/
def outOfRange : Nat := Nat.pow 2 1024

/-- The number of decimal digits, at most; one too many at times. -/
def digitBound (n : Nat) : Nat := Nat.log2 n * 30103 / 100000 + 1

/-- The number nearest to `± n · 10 ^ e`. Far outside the range of the format the answer is
known without the power of ten. -/
def ofDecimal (negative : Bool) (n : Nat) (e : Int) : Float :=
  if n = 0 ∨ e + digitBound n < -340 then ofQuotient negative 0 1
  else if 340 < e + digitBound n then ofQuotient negative outOfRange 1
  else
    let (a, b) := scaled n 10 e
    ofQuotient negative a b

def infinity : Float := ofQuotient false outOfRange 1

def nan : Float := Float.ofBits 0x7ff8000000000000

def isFinite (x : Float) : Bool :=
  match decode x with
  | .finite .. => true
  | _ => false

example : decode 0.75 = .finite false (3 * 2 ^ 51) (-53) := by decide +kernel

example : ofQuotient true 1 10 == -0.1 := by decide +kernel

example : ofDecimal false 1 400 == infinity := by decide +kernel

end Zeitnot.Number.Binary64
