import Zeitnot.Number.Binary64
import Zeitnot.Text.Numeral
set_option autoImplicit false

namespace Zeitnot.Text
open Number

/-- Digits at the start of a text, none if it starts with something else: their value and number.
Fails if an underscore stands where no digit follows. -/
def digitsAt? (s : List Char) : Option (Nat × Nat × List Char) :=
  match s with
  | [] => some (0, 0, [])
  | c :: _ => if (digitIn? 10 c).isSome then scanDigits 10 false 0 0 s else some (0, 0, s)

def exponentAt? : List Char → Option (Int × List Char)
  | e :: r =>
    if e = 'e' ∨ e = 'E' then do
      let (negative, r) := splitSign r
      let (n, _, r) ← scanDigits 10 false 0 0 r
      pure (if negative then -(n : Int) else n, r)
    else some (0, e :: r)
  | [] => some (0, [])

def unsignedReal? (negative : Bool) (s : List Char) : Option Float := do
  let word := String.ofList (s.map Char.toLower)
  if word = "inf" ∨ word = "infinity" then
    return if negative then -Binary64.infinity else Binary64.infinity
  if word = "nan" then return Binary64.nan
  let (whole, n, r) ← digitsAt? s
  let (fraction, m, r) ← match r with
    | '.' :: r => digitsAt? r
    | r => some (0, 0, r)
  if n + m = 0 then none
  let (exponent, r) ← exponentAt? r
  if r.isEmpty then
    return Binary64.ofDecimal negative (whole * Nat.pow 10 m + fraction) (exponent - m)
  else none

def readReal? (s : String) : Option Float :=
  let (negative, cs) := splitSign (trim padsNumeral s.toList)
  unsignedReal? negative cs

end Zeitnot.Text
