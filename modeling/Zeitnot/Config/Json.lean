import Zeitnot.Config.Value
import Zeitnot.Text.Numeral
/-!
Values from JSON text. Beside the standard's values there are `NaN`, `Infinity` and `-Infinity`;
of a key given twice the last value counts, at the place of the first.
-/
set_option autoImplicit false

namespace Zeitnot.Config.Json
open Text

inductive Fault
  | malformed
  | numeral (fault : NumeralFault)
  deriving DecidableEq, Repr

def isSpace (c : Char) : Bool := c == ' ' || c == '\t' || c == '\n' || c == '\r'

def skipSpace (s : List Char) : List Char := s.dropWhile isSpace

def isDigit (c : Char) : Bool := '0' ≤ c && c ≤ '9'

def digitsValue (ds : List Char) : Nat := ds.foldl (fun n c => n * 10 + (c.toNat - 48)) 0

def hexValue? (c : Char) : Option Nat := if c.toNat < 128 then digitIn? 16 c else none

def fourHex? : List Char → Option (Nat × List Char)
  | a :: b :: c :: d :: r => do
    let a ← hexValue? a
    let b ← hexValue? b
    let c ← hexValue? c
    let d ← hexValue? d
    pure (((a * 16 + b) * 16 + c) * 16 + d, r)
  | _ => none

/-- What a code point between `0xd800` and `0xdfff` that has no partner reads as. -/
def replacement : Char := Char.ofNat 0xfffd

/-- The character of an escape after its `\u`, taking a second one as the low half of a pair. -/
def codeEscape? (s : List Char) : Option (Char × List Char) := do
  let (n, r) ← fourHex? s
  if 0xd800 ≤ n && n ≤ 0xdbff then
    match r with
    | '\\' :: 'u' :: r' =>
      match fourHex? r' with
      | some (m, r'') =>
        if 0xdc00 ≤ m && m ≤ 0xdfff then
          pure (Char.ofNat (0x10000 + (n - 0xd800) * 0x400 + (m - 0xdc00)), r'')
        else pure (replacement, r)
      | none => pure (replacement, r)
    | _ => pure (replacement, r)
  else if 0xdc00 ≤ n && n ≤ 0xdfff then pure (replacement, r)
  else pure (Char.ofNat n, r)

def simpleEscape? : Char → Option Char
  | '"' => some '"'
  | '\\' => some '\\'
  | '/' => some '/'
  | 'b' => some '\x08'
  | 'f' => some '\x0c'
  | 'n' => some '\n'
  | 'r' => some '\r'
  | 't' => some '\t'
  | _ => none

def string? : (fuel : Nat) → (acc : List Char) → List Char → Option (String × List Char)
  | 0, _, _ => none
  | fuel + 1, acc, s =>
    match s with
    | [] => none
    | '"' :: r => some (String.ofList acc.reverse, r)
    | '\\' :: 'u' :: r => do
      let (c, r) ← codeEscape? r
      string? fuel (c :: acc) r
    | '\\' :: c :: r => do
      let c ← simpleEscape? c
      string? fuel (c :: acc) r
    | c :: r => if c.toNat < 32 then none else string? fuel (c :: acc) r

def number? (s : List Char) : Option (Except NumeralFault Value × List Char) :=
  let (negative, s) := match s with
    | '-' :: r => (true, r)
    | r => (false, r)
  let whole := match s with
    | '0' :: _ => ['0']
    | _ => s.takeWhile isDigit
  if whole.isEmpty then none
  else
    let r := s.drop whole.length
    let (fraction, r) := match r with
      | '.' :: t =>
        let ds := t.takeWhile isDigit
        if ds.isEmpty then ([], r) else (ds, t.drop ds.length)
      | _ => ([], r)
    let exponent? (e : Char) (t : List Char) : Option (Int × List Char) :=
      if e == 'e' || e == 'E' then
        let (minus, t) := splitSign t
        let ds := t.takeWhile isDigit
        if ds.isEmpty then none
        else
          let n : Int := digitsValue ds
          some (if minus then -n else n, t.drop ds.length)
      else none
    let (exponent, r) := match r with
      | e :: t =>
        match exponent? e t with
        | some (n, t) => (some n, t)
        | none => (none, r)
      | [] => (none, r)
    if fraction.isEmpty && exponent.isNone then
      if digitLimit < whole.length then some (.error (.tooLong whole.length), r)
      else
        let n : Int := digitsValue whole
        some (.ok (.int (if negative then -n else n)), r)
    else
      let digits := digitsValue (whole ++ fraction)
      let power := exponent.getD 0 - fraction.length
      some (.ok (.real (Number.Binary64.ofDecimal negative digits power)), r)

def words : List (List Char × Value) :=
  [("null".toList, .null), ("true".toList, .bool true), ("false".toList, .bool false),
    ("NaN".toList, .real Number.Binary64.nan),
    ("Infinity".toList, .real Number.Binary64.infinity),
    ("-Infinity".toList, .real (-Number.Binary64.infinity))]

def word? (s : List Char) : Option (Value × List Char) :=
  words.findSome? fun (w, v) => if w.isPrefixOf s then some (v, s.drop w.length) else none

mutual
def value : (fuel : Nat) → List Char → Except Fault (Value × List Char)
  | 0, _ => .error .malformed
  | fuel + 1, s =>
    match s with
    | '"' :: r =>
      match string? (r.length + 1) [] r with
      | some (t, r) => .ok (.text t, r)
      | none => .error .malformed
    | '[' :: r =>
      match skipSpace r with
      | ']' :: r => .ok (.list [], r)
      | r => elements fuel [] r
    | '\x7b' :: r =>
      match skipSpace r with
      | '\x7d' :: r => .ok (.mapping [], r)
      | r => members fuel [] r
    | s =>
      match word? s with
      | some found => .ok found
      | none =>
        match number? s with
        | some (.ok v, r) => .ok (v, r)
        | some (.error e, _) => .error (.numeral e)
        | none => .error .malformed

def elements : (fuel : Nat) → (acc : List Value) → List Char → Except Fault (Value × List Char)
  | 0, _, _ => .error .malformed
  | fuel + 1, acc, s => do
    let (v, r) ← value fuel s
    match skipSpace r with
    | ',' :: r => elements fuel (v :: acc) (skipSpace r)
    | ']' :: r => .ok (.list (v :: acc).reverse, r)
    | _ => .error .malformed

def members : (fuel : Nat) → (acc : List (Value × Value)) → List Char →
    Except Fault (Value × List Char)
  | 0, _, _ => .error .malformed
  | fuel + 1, acc, s =>
    match s with
    | '"' :: r =>
      match string? (r.length + 1) [] r with
      | none => .error .malformed
      | some (key, r) =>
        match skipSpace r with
        | ':' :: r => do
          let (v, r) ← value fuel (skipSpace r)
          let acc := Value.putEntry (.text key) v acc
          match skipSpace r with
          | ',' :: r => members fuel acc (skipSpace r)
          | '\x7d' :: r => .ok (.mapping acc, r)
          | _ => .error .malformed
        | _ => .error .malformed
    | _ => .error .malformed
end

def read (text : String) : Except Fault Value :=
  let s := skipSpace text.toList
  match value (2 * s.length + 2) s with
  | .ok (v, r) => if (skipSpace r).isEmpty then .ok v else .error .malformed
  | .error e => .error e

end Zeitnot.Config.Json
