import Zeitnot.Config.Value
import Zeitnot.Config.Yaml.Node
import Zeitnot.Text.LowerCase
import Zeitnot.Text.RealNumeral
set_option autoImplicit false

namespace Zeitnot.Config.Yaml
open Number Text

/-! ### Scalars -/

/-- Numbers between colons, each counting sixty times the next. -/
def sixties {α : Type} (scale : α → Nat → α) (add : α → α → α) (zero : α) (ds : List α) : α :=
  ds.reverse.zipIdx.foldl (fun sum d => add sum (scale d.1 (Nat.pow 60 d.2))) zero

def intOf (text : String) : Except Fault Int := do
  let s := text.toList.filter (· != '_')
  let (negative, ds) := splitSign s
  let digits := String.ofList ds
  let n ← match ds with
    | [] => .error .noDigits
    | ['0'] => pure 0
    | '0' :: 'b' :: r => (readIntIn 2 (String.ofList r)).mapError .integer
    | '0' :: 'x' :: r => (readIntIn 16 (String.ofList r)).mapError .integer
    | '0' :: _ => (readIntIn 8 digits).mapError .integer
    | _ =>
      if ds.contains ':' then do
        let parts ← ((digits.splitOn ":").mapM readInt).mapError .integer
        pure (sixties (fun d n => d * (n : Int)) (· + ·) 0 parts)
      else (readInt digits).mapError .integer
  pure (if negative then -n else n)

def realPart (s : String) : Except Fault Float :=
  match readReal? s with
  | some x => .ok x
  | none => .error (.real s)

def realOf (text : String) : Except Fault Float := do
  let s := (lower (String.ofList (text.toList.filter (· != '_')))).toList
  if s.isEmpty then .error .noDigits
  let (negative, ds) := splitSign s
  let digits := String.ofList ds
  let x ←
    if digits == ".inf" then pure Binary64.infinity
    else if digits == ".nan" then pure Binary64.nan
    else if ds.contains ':' then do
      let parts ← (digits.splitOn ":").mapM realPart
      pure (sixties (fun d n => d * Binary64.ofInt n) (· + ·) 0.0 parts)
    else realPart digits
  pure (if negative then -x else x)

def truthOf (text : String) : Except Fault Bool :=
  let s := lower text
  if truthWords.contains s then .ok true
  else if untruthWords.contains s then .ok false
  else .error (.truth s)

def sixBits? (c : Char) : Option Nat :=
  if 'A' ≤ c ∧ c ≤ 'Z' then some (c.toNat - 65)
  else if 'a' ≤ c ∧ c ≤ 'z' then some (c.toNat - 71)
  else if '0' ≤ c ∧ c ≤ '9' then some (c.toNat + 4)
  else if c = '+' then some 62
  else if c = '/' then some 63
  else none

/-- Bytes of a text in base 64. `count` characters of a group of four are read, and `bits` is what
of them is not in a byte yet. Two equals signs, or one, fill a group of two or three; then the rest
does not matter. Other characters are passed over. -/
def base64From (count bits signs : Nat) : List Char → Option (List UInt8)
  | [] => if count = 0 then some [] else none
  | c :: r =>
    if c = '=' then
      if count < 2 then base64From count bits signs r
      else if 4 ≤ count + signs + 1 then some []
      else base64From count bits (signs + 1) r
    else
      match sixBits? c with
      | none => base64From count bits signs r
      | some v =>
        let bits := bits * 64 + v
        let byte (width : Nat) : UInt8 := UInt8.ofNat (bits / Nat.pow 2 width)
        match count with
        | 0 => base64From 1 bits 0 r
        | 1 => (base64From 2 (bits % 16) 0 r).map (byte 4 :: ·)
        | 2 => (base64From 3 (bits % 4) 0 r).map (byte 2 :: ·)
        | _ => (base64From 0 0 0 r).map (byte 0 :: ·)

def bytesOf (text : String) : Except Fault (List UInt8) :=
  let s := text.toList
  if s.all fun c => c.toNat < 128 then
    match base64From 0 0 0 s with
    | some bs => .ok bs
    | none => .error .malformed
  else .error .malformed

def microseconds (fraction : List Char) : Nat :=
  let ds := (fraction ++ List.replicate 6 '0').take 6
  ds.foldl (fun n d => n * 10 + (d.toNat - 48)) 0

def timestampOf (text : String) : Except Fault Value :=
  match writtenDate? (dropLastBreak text.toList) with
  | none => .error .notTimestamp
  | some d =>
    match d.time with
    | none => ((Date.make d.year d.month d.day).map Value.date).mapError .calendar
    | some t =>
      ((Moment.make d.year d.month d.day t.hour t.minute t.second (microseconds t.fraction)
        t.offset).map Value.moment).mapError .calendar

/-! ### Collections -/

def Node.tag : Node → Tag
  | .scalar t _ => t
  | .sequence t _ => t
  | .mapping t _ => t
  | .again isMapping => if isMapping then .map else .seq

def Node.asText : Node → Node
  | .scalar _ s => .scalar .str s
  | .sequence _ ns => .sequence .str ns
  | .mapping _ es => .mapping .str es
  | n => n

abbrev Entries := List (Node × Node)

/-- The entries of a mapping, after those that its keys `merge` lend. A key `value` is a text
here. -/
def mergedEntries : (fuel : Nat) → Entries → Except Fault Entries
  | 0, _ => .error .malformed
  | fuel + 1, es => do
    let lentBy (n : Node) : Except Fault Entries :=
      match n with
      | .mapping _ es => mergedEntries fuel es
      | _ => .error .malformed
    let lent ← (es.filter fun e => e.1.tag == .merge).mapM fun e =>
      match e.2 with
      | .sequence _ ns => do pure (← ns.mapM lentBy).reverse.flatten
      | n => lentBy n
    let own := (es.filter fun e => e.1.tag != .merge).map fun e =>
      if e.1.tag == .value then (e.1.asText, e.2) else e
    pure (lent.flatten ++ own)

def scalarText : (fuel : Nat) → Node → Except Fault String
  | 0, _ => .error .malformed
  | _ + 1, .scalar _ s => .ok s
  | fuel + 1, .mapping _ es =>
    match es.find? fun e => e.1.tag == .value with
    | some e => scalarText fuel e.2
    | none => .error .malformed
  | _ + 1, _ => .error .malformed

def Tag.isKey (t : Tag) : Bool := [Tag.seq, .map, .set, .omap, .pairs].all (· != t)

def build : (fuel : Nat) → Node → Except Fault Value
  | 0, _ => .error .malformed
  | fuel + 1, n => do
    let text := scalarText fuel n
    let entriesOf (n : Node) : Except Fault (List (Value × Value)) :=
      match n with
      | .mapping _ es => do
        let es ← mergedEntries fuel es
        es.foldlM (fun kvs e => do
          if !e.1.tag.isKey then .error .malformed
          let k ← build fuel e.1
          let v ← build fuel e.2
          pure (Value.putEntry k v kvs)) []
      | _ => .error .malformed
    let pairOf (n : Node) : Except Fault Value :=
      match n with
      | .mapping _ [(k, v)] => do pure (.tuple [← build fuel k, ← build fuel v])
      | _ => .error .malformed
    match n, n.tag with
    | .again isMapping, _ => pure (.again isMapping)
    | _, .null => do
      let _ ← text
      pure .null
    | _, .bool => do pure (.bool (← truthOf (← text)))
    | _, .int => do pure (.int (← intOf (← text)))
    | _, .float => do pure (.real (← realOf (← text)))
    | _, .binary => do pure (.bytes (← bytesOf (← text)))
    | _, .timestamp => do timestampOf (← text)
    | _, .str => do pure (.text (← text))
    | .sequence _ ns, .seq => do pure (.list (← ns.mapM (build fuel)))
    | .sequence _ ns, .omap => do pure (.list (← ns.mapM pairOf))
    | .sequence _ ns, .pairs => do pure (.list (← ns.mapM pairOf))
    | n, .map => do pure (.mapping (← entriesOf n))
    | n, .set => do pure (.set ((← entriesOf n).map (·.1)))
    | _, _ => .error .malformed

end Zeitnot.Config.Yaml
