import Zeitnot.Text.Blank
import Zeitnot.Text.DecimalDigit
import Zeitnot.Text.Quoted
/-!
Numerals: an optional sign and digits of any script, with single underscores between digits and
blanks around the whole. Main function: `readInt`.
-/
set_option autoImplicit false

namespace Zeitnot.Text

inductive NumeralFault
  | malformed (base : Nat) (text : String)
  | tooLong (digits : Nat)
  deriving DecidableEq, Repr

/-- Decimal numerals of more digits are refused. -/
def digitLimit : Nat := 4300

/-- Messages show at most this many characters of a quoted numeral. -/
def shownLimit : Nat := 200

def NumeralFault.message : NumeralFault → String
  | .malformed base text =>
    s!"invalid literal for int() with base {base}: " ++
      String.ofList ((quoted text).toList.take shownLimit)
  | .tooLong digits =>
    s!"Exceeds the limit ({digitLimit} digits) for integer string conversion: value has " ++
      s!"{digits} digits; use sys.set_int_max_str_digits() to increase the limit"

/-- Blanks that may stand around a numeral: every blank but the information separators. -/
def padsNumeral (c : Char) : Bool := isBlank c && !(28 ≤ c.toNat && c.toNat ≤ 31)

/-- The value of a digit below `base`; from ten on the digits are the letters. -/
def digitIn? (base : Nat) (c : Char) : Option Nat :=
  let value :=
    if 'a' ≤ c ∧ c ≤ 'f' then some (c.toNat - 87)
    else if 'A' ≤ c ∧ c ≤ 'F' then some (c.toNat - 55)
    else digitValue? c
  value.filter (· < base)

/-- Digits with single underscores between them: their value, their number and what follows.
`afterDigit` says that a digit has just been read. -/
def scanDigits (base : Nat) (afterDigit : Bool) (acc count : Nat) :
    List Char → Option (Nat × Nat × List Char)
  | [] => if afterDigit then some (acc, count, []) else none
  | c :: r =>
    match digitIn? base c with
    | some d => scanDigits base true (acc * base + d) (count + 1) r
    | none =>
      if c = '_' then
        if afterDigit then scanDigits base false acc count r else none
      else if afterDigit then some (acc, count, c :: r) else none

def splitSign : List Char → Bool × List Char
  | '-' :: r => (true, r)
  | '+' :: r => (false, r)
  | r => (false, r)

def dropBaseMark (base : Nat) : List Char → List Char
  | '0' :: x :: r =>
    let mark := if base = 16 then 'x' else if base = 8 then 'o' else 'b'
    if base ≠ 10 ∧ x.toLower = mark then
      match r with
      | '_' :: r => r
      | r => r
    else '0' :: x :: r
  | r => r

/-- Reads a numeral of a base; only bases that are no power of two have a limit on their digits. -/
def readIntIn (base : Nat) (s : String) : Except NumeralFault Int :=
  let bad := .error (.malformed base s)
  let (negative, cs) := splitSign (s.toList.dropWhile padsNumeral)
  match scanDigits base false 0 0 (dropBaseMark base cs) with
  | none => bad
  | some (value, count, rest) =>
    if base = 10 ∧ digitLimit < count then .error (.tooLong count)
    else if rest.all padsNumeral then .ok (if negative then -(value : Int) else value)
    else bad

def readInt (s : String) : Except NumeralFault Int := readIntIn 10 s

end Zeitnot.Text
