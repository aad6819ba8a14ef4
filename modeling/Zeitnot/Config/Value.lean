import Zeitnot.Config.Calendar
import Zeitnot.Number.ShortestText
import Zeitnot.Text.Quoted
/-!
Values of a configuration file, and how messages show them: `plain` shows a text as it is, and
`literal` quotes it, as does `plain` inside a list or a mapping.
-/
set_option autoImplicit false

namespace Zeitnot.Config
open Number Text

inductive Value
  | null
  | bool (b : Bool)
  | int (i : Int)
  | real (x : Float)
  | text (s : String)
  | bytes (bs : List UInt8)
  | date (d : Date)
  | moment (m : Moment)
  | list (vs : List Value)
  | tuple (vs : List Value)
  | set (vs : List Value)
  | mapping (kvs : List (Value × Value))
  /-- A list or a mapping that this value lies in. -/
  | again (isMapping : Bool)
  deriving Repr, Inhabited

namespace Value

def typeName : Value → String
  | .null => "NoneType"
  | .bool _ => "bool"
  | .int _ => "int"
  | .real _ => "float"
  | .text _ => "str"
  | .bytes _ => "bytes"
  | .date _ => "datetime.date"
  | .moment _ => "datetime.datetime"
  | .list _ => "list"
  | .tuple _ => "tuple"
  | .set _ => "set"
  | .mapping _ => "dict"
  | .again isMapping => if isMapping then "dict" else "list"

def boolText (b : Bool) : String := if b then "True" else "False"

def byteText (quote : Char) (b : UInt8) : List Char :=
  let c := Char.ofNat b.toNat
  if c.toNat < 128 then escapeChar quote c else '\\' :: 'x' :: hexDigits 2 b.toNat

def bytesText (bs : List UInt8) : String :=
  let q := quoteOf (bs.map fun b => Char.ofNat b.toNat)
  String.ofList ('b' :: q :: bs.flatMap (byteText q) ++ [q])

mutual
def literal : Value → String
  | .null => "None"
  | .bool b => boolText b
  | .int i => toString i
  | .real x => realText x
  | .text s => quoted s
  | .bytes bs => bytesText bs
  | .date d => d.literal
  | .moment m => m.literal
  | .list vs => "[" ++ ", ".intercalate (literals vs) ++ "]"
  | .tuple vs => "(" ++ ", ".intercalate (literals vs) ++ (if vs.length = 1 then ",)" else ")")
  | .set vs => if vs.isEmpty then "set()" else "\x7b" ++ ", ".intercalate (literals vs) ++ "\x7d"
  | .mapping kvs => "\x7b" ++ ", ".intercalate (entries kvs) ++ "\x7d"
  | .again isMapping => if isMapping then "\x7b...\x7d" else "[...]"

def literals : List Value → List String
  | [] => []
  | v :: vs => v.literal :: literals vs

def entries : List (Value × Value) → List String
  | [] => []
  | (k, v) :: kvs => (k.literal ++ ": " ++ v.literal) :: entries kvs
end

def plain : Value → String
  | .text s => s
  | .date d => d.text
  | .moment m => m.text
  | v => v.literal

@[simp] theorem plain_int (i : Int) : (int i).plain = toString i := by simp [plain, literal]

@[simp] theorem plain_text (s : String) : (text s).plain = s := rfl

def toInt? : Value → Option Int
  | .int i => some i
  | .bool b => some (if b then 1 else 0)
  | _ => none

def isMapping : Value → Bool
  | .mapping _ => true
  | _ => false

def isNothing : Value → Bool
  | .null => true
  | .bool b => !b
  | .int i => i == 0
  | .real x => x == 0.0
  | .text s => s.isEmpty
  | .bytes bs => bs.isEmpty
  | .date _ | .moment _ | .again _ => false
  | .list vs | .tuple vs | .set vs => vs.isEmpty
  | .mapping kvs => kvs.isEmpty

/-- Where an integer stands to a number that may not be an integer; nowhere if it is none. -/
def compareInt (i : Int) : Value → Option Ordering
  | .int j => some (compare i j)
  | .bool b => some (compare i (if b then 1 else 0))
  | .real x =>
    match Binary64.decode x with
    | .nan => none
    | .infinite negative => some (if negative then .gt else .lt)
    | .finite negative m q =>
      let (n, d) := scaled m 2 q
      some (compare (i * d) (if negative then -(n : Int) else n))
  | _ => none

def isNumber : Value → Bool
  | .int _ | .bool _ | .real _ => true
  | _ => false

/-- Whether two values are the same key. Numbers are keys by their value, whatever their type. -/
def sameKey : Value → Value → Bool
  | .null, .null => true
  | .text s, .text t => s == t
  | .bytes s, .bytes t => s == t
  | .date d, .date e => d == e
  | .moment m, .moment n => m == n
  | .real x, .real y => x == y
  | .real x, v =>
    match v.toInt? with
    | some i => compareInt i (.real x) == some .eq
    | none => false
  | v, .real x =>
    match v.toInt? with
    | some i => compareInt i (.real x) == some .eq
    | none => false
  | v, w =>
    match v.toInt?, w.toInt? with
    | some i, some j => i == j
    | _, _ => false

/-- A mapping with an entry put in: an old key keeps its place and its own form. -/
def putEntry (key value : Value) : List (Value × Value) → List (Value × Value)
  | [] => [(key, value)]
  | (k, v) :: kvs => if k.sameKey key then (k, value) :: kvs else (k, v) :: putEntry key value kvs

def field? (name : String) : Value → Option Value
  | .mapping kvs => (kvs.find? fun kv => kv.1.sameKey (.text name)).map (·.2)
  | _ => none

end Value
end Zeitnot.Config
