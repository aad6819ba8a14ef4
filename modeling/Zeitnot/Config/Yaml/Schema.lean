import Zeitnot.Config.Calendar
import Zeitnot.Config.Yaml.Cursor
import Zeitnot.Config.Yaml.Fault
set_option autoImplicit false

namespace Zeitnot.Config.Yaml

inductive Tag
  | null
  | bool
  | int
  | float
  | binary
  | timestamp
  | omap
  | pairs
  | set
  | str
  | seq
  | map
  /-- A key whose value lends its entries. -/
  | merge
  /-- A key whose value stands for the whole mapping. -/
  | value
  | unknown
  deriving DecidableEq, Repr

def standardTags : String := "tag:yaml.org,2002:"

def Tag.ofName (name : String) : Tag :=
  let words : List (String × Tag) :=
    [("null", .null), ("bool", .bool), ("int", .int), ("float", .float), ("binary", .binary),
      ("timestamp", .timestamp), ("omap", .omap), ("pairs", .pairs), ("set", .set), ("str", .str),
      ("seq", .seq), ("map", .map), ("merge", .merge), ("value", .value)]
  match words.find? fun w => standardTags ++ w.1 == name with
  | some w => w.2
  | none => .unknown

/-! ### Numbers -/

def isDecimal (c : Char) : Bool := '0' ≤ c && c ≤ '9'

def isOctal (c : Char) : Bool := '0' ≤ c && c ≤ '7'

def isBinary (c : Char) : Bool := c == '0' || c == '1'

/-- At least one character, each of which is an underscore or has a property. -/
def digitsOf (p : Char → Bool) (s : List Char) : Bool :=
  !s.isEmpty && s.all fun c => c == '_' || p c

def startsDigits (s : List Char) : Bool :=
  match s with
  | c :: r => isDecimal c && r.all fun c => c == '_' || isDecimal c
  | [] => false

def dropSign : List Char → List Char
  | '-' :: r => r
  | '+' :: r => r
  | s => s

def isSixtieth : List Char → Bool
  | [d] => isDecimal d
  | [t, d] => '0' ≤ t && t ≤ '5' && isDecimal d
  | _ => false

def colonParts (s : List Char) : List (List Char) :=
  ((String.ofList s).splitOn ":").map String.toList

def isInt (s : List Char) : Bool :=
  match dropSign s with
  | ['0'] => true
  | '0' :: 'b' :: r => digitsOf isBinary r
  | '0' :: 'x' :: r => digitsOf isHexDigit r
  | '0' :: r => digitsOf isOctal r
  | r =>
    match colonParts r with
    | first :: rest => startsDigits first && rest.all isSixtieth
    | [] => false

def isExponent : List Char → Bool
  | [] => true
  | e :: sign :: ds =>
    (e == 'e' || e == 'E') && (sign == '-' || sign == '+') && !ds.isEmpty && ds.all isDecimal
  | _ => false

def isFloat (s : List Char) : Bool :=
  let word := String.ofList s
  let unsigned := dropSign s
  let whole := unsigned.takeWhile (· != '.')
  let isPart (c : Char) : Bool := c == '_' || isDecimal c
  match s, unsigned.drop whole.length with
  | '.' :: r, _ =>
    let digits := r.takeWhile isPart
    (startsDigits digits && isExponent (r.drop digits.length)) ||
      [".inf", ".Inf", ".INF", ".nan", ".NaN", ".NAN"].contains word
  | _, '.' :: r =>
    if whole.isEmpty then ["inf", "Inf", "INF"].contains (String.ofList r)
    else
      match colonParts whole with
      | [first] => startsDigits first && isExponent (r.dropWhile isPart)
      | first :: rest => startsDigits first && rest.all isSixtieth && r.all isPart
      | [] => false
  | _, _ => false

/-! ### Dates and times -/

structure WrittenTime where
  hour : Nat
  minute : Nat
  second : Nat
  fraction : List Char
  /-- Seconds from universal time. -/
  offset : Option Int
  deriving DecidableEq, Repr

structure WrittenDate where
  year : Nat
  month : Nat
  day : Nat
  time : Option WrittenTime
  deriving DecidableEq, Repr

/-- A number of at least `least` digits and no more than `most`. -/
def digitsBetween? (least most : Nat) (s : List Char) : Option (Nat × List Char) :=
  let ds := (s.take most).takeWhile isDecimal
  if least ≤ ds.length then
    some (ds.foldl (fun n d => n * 10 + (d.toNat - 48)) 0, s.drop ds.length)
  else none

def expect? (c : Char) : List Char → Option (List Char)
  | x :: r => if x == c then some r else none
  | [] => none

def isBlankOrTab (c : Char) : Bool := c == ' ' || c == '\t'

def offset? (s : List Char) : Option (Option Int) :=
  if s.isEmpty then some none
  else
    match s.dropWhile isBlankOrTab with
    | ['Z'] => some (some 0)
    | sign :: r =>
      if sign == '-' || sign == '+' then do
        let (hours, r) ← digitsBetween? 1 2 r
        let (minutes, r) ← match r with
          | ':' :: r => digitsBetween? 2 2 r
          | r => some (0, r)
        let seconds : Int := hours * 3600 + minutes * 60
        if r.isEmpty then some (some (if sign == '-' then -seconds else seconds)) else none
      else none
    | [] => none

def time? (s : List Char) : Option WrittenTime := do
  let (hour, r) ← digitsBetween? 1 2 s
  let (minute, r) ← digitsBetween? 2 2 (← expect? ':' r)
  let (second, r) ← digitsBetween? 2 2 (← expect? ':' r)
  let (fraction, r) := match r with
    | '.' :: r => (r.takeWhile isDecimal, r.dropWhile isDecimal)
    | r => ([], r)
  pure ⟨hour, minute, second, fraction, ← offset? r⟩

def writtenDate? (s : List Char) : Option WrittenDate := do
  let (year, r) ← digitsBetween? 4 4 s
  let (month, r) ← digitsBetween? 1 2 (← expect? '-' r)
  let (day, r) ← digitsBetween? 1 2 (← expect? '-' r)
  match r with
  | [] => pure ⟨year, month, day, none⟩
  | c :: t =>
    if c == 'T' || c == 't' then pure ⟨year, month, day, some (← time? t)⟩
    else if isBlankOrTab c then pure ⟨year, month, day, some (← time? (r.dropWhile isBlankOrTab))⟩
    else none

/-- A date alone has ten characters; with a time its month and day may have one digit. -/
def isTimestamp (s : List Char) : Bool :=
  match writtenDate? s with
  | some d => d.time.isSome || s.length == 10
  | none => false

/-! ### Tags of plain scalars -/

def truthWords : List String := ["yes", "true", "on"]

def untruthWords : List String := ["no", "false", "off"]

/-- A word in small letters, with a capital or in capitals. -/
def isTruth (s : String) : Bool :=
  (truthWords ++ untruthWords).any fun w => s == w || s == w.capitalize || s == w.toUpper

def isNull (s : String) : Bool := ["", "~", "null", "Null", "NULL"].contains s

/-- A text without a line break at its end, unless it is nothing else. -/
def dropLastBreak (s : List Char) : List Char :=
  if s.getLast? = some '\n' ∧ 1 < s.length then s.dropLast else s

def Tag.ofPlain (text : String) : Tag :=
  let cs := dropLastBreak text.toList
  let s := String.ofList cs
  if isTruth s then .bool
  else if isFloat cs then .float
  else if isInt cs then .int
  else if s == "<<" then .merge
  else if isNull s then .null
  else if isTimestamp cs then .timestamp
  else if s == "=" then .value
  else .str

end Zeitnot.Config.Yaml
