import Zeitnot.Config.Value
import Zeitnot.Text.LowerCase
import Zeitnot.Text.Numeral
/-!
Settings: named values of an engine, each with a kind that says what it may hold. A `spin` holds an
integer between two bounds, a `check` holds true or false.
-/
set_option autoImplicit false

namespace Zeitnot
open Config Text

inductive SettingKind
  | spin
  | check
  deriving DecidableEq, Repr

def SettingKind.ofName? (s : String) : Option SettingKind :=
  if s = "spin" then some .spin else if s = "check" then some .check else none

inductive OptionFault
  | unsupportedKind (kind name : String)
  | notTruth (name raw : String)
  | notInteger (name raw : String)
  | outOfRange (name least greatest : String) (value : Int)
  /-- A bound that integers cannot be compared with by `relation`. -/
  | incomparable (relation bound : String)
  | noSuchOption (name : String)
  /-- The name of no setting, where a value is looked up. -/
  | unnamed (name : String)
  | unknownInFile (name file : String)
  | notMapping (file : String)
  deriving DecidableEq, Repr

def OptionFault.message : OptionFault → String
  | .unsupportedKind kind name => s!"Unsupported option type '{kind}' for {name}"
  | .notTruth name raw => s!"Option {name} expects true or false, got '{raw}'"
  | .notInteger name raw => s!"Option {name} expects an integer, got '{raw}'"
  | .outOfRange name least greatest value =>
    s!"Option {name} must be between {least} and {greatest}, got {value}"
  | .incomparable relation bound =>
    s!"'{relation}' not supported between instances of 'int' and '{bound}'"
  | .noSuchOption name => quoted s!"No such option: {name}"
  | .unnamed name => quoted name
  | .unknownInFile name file => s!"Unknown option '{name}' in {file}"
  | .notMapping file => s!"Config file {file} must contain a mapping of option names to values"

structure Setting where
  name : String
  kind : SettingKind
  initial : Value
  least : Value
  greatest : Value
  value : Value
  deriving Repr

namespace Setting

def spin (name : String) (initial least greatest : Int) : Setting :=
  ⟨name, .spin, .int initial, .int least, .int greatest, .int initial⟩

def check (name : String) (initial : Bool) : Setting :=
  ⟨name, .check, .bool initial, .null, .null, .bool initial⟩

def declare (kind name : String) (initial least greatest : Value) :
    Except OptionFault Setting :=
  match SettingKind.ofName? kind with
  | some k => .ok ⟨name, k, initial, least, greatest, initial⟩
  | none => .error (.unsupportedKind kind name)

/-- An integer that is at least and at most what the setting allows. The lower bound is looked at
first. -/
def checkRange (s : Setting) (i : Int) : Except OptionFault Value :=
  let outside := .error (.outOfRange s.name s.least.plain s.greatest.plain i)
  if !s.least.isNumber then .error (.incomparable "<" s.least.typeName)
  else if Value.compareInt i s.least == some .lt then outside
  else if !s.greatest.isNumber then .error (.incomparable ">" s.greatest.typeName)
  else if Value.compareInt i s.greatest == some .gt then outside
  else .ok (.int i)

def parse (s : Setting) (raw : Value) : Except OptionFault Value :=
  match s.kind, raw with
  | .check, .bool b => .ok (.bool b)
  | .check, raw =>
    let text := lower (strip raw.plain)
    if text = "true" then .ok (.bool true)
    else if text = "false" then .ok (.bool false)
    else .error (.notTruth s.name raw.plain)
  | .spin, .bool b => .error (.notInteger s.name (Value.boolText b))
  | .spin, raw =>
    match readInt (strip raw.plain) with
    | .error _ => .error (.notInteger s.name raw.plain)
    | .ok i => s.checkRange i

def put (s : Setting) (raw : Value) : Except OptionFault Setting :=
  return { s with value := ← s.parse raw }

def reset (s : Setting) : Setting := { s with value := s.initial }

def announcement (s : Setting) : String :=
  match s.kind with
  | .check => s!"option name {s.name} type check default " ++ lower s.initial.plain
  | .spin =>
    s!"option name {s.name} type spin default " ++ s.initial.plain ++ " min " ++ s.least.plain ++
      " max " ++ s.greatest.plain

end Setting
end Zeitnot
