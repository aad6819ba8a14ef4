import Zeitnot.Clock.Allocator
import Zeitnot.Options.Setting
set_option autoImplicit false

namespace Zeitnot
open Config

structure Options where
  settings : List Setting
  deriving Repr

namespace Options

def standard : Options :=
  ⟨[.spin "Move Overhead" 10 0 5000, .spin "nodestime" 0 0 10000, .check "Ponder" false]⟩

def names (o : Options) : List String := o.settings.map (·.name)

def find? (o : Options) (name : String) : Option Setting :=
  o.settings.find? fun s => s.name == name

def declare (o : Options) (s : Setting) : Options :=
  if (o.find? s.name).isSome then
    ⟨o.settings.map fun t => if t.name = s.name then s else t⟩
  else ⟨o.settings ++ [s]⟩

def get (o : Options) (name : String) : Except OptionFault Value :=
  match o.find? name with
  | some s => .ok s.value
  | none => .error (.unnamed name)

def set (o : Options) (name : String) (raw : Value) : Except OptionFault Options :=
  match o.find? name with
  | none => .error (.noSuchOption name)
  | some s => return o.declare (← s.put raw)

def reset (o : Options) : Options := ⟨o.settings.map Setting.reset⟩

def toList (o : Options) : List (String × Value) := o.settings.map fun s => (s.name, s.value)

def announcements (o : Options) : List String := o.settings.map Setting.announcement

def intValue (o : Options) (name : String) : Int :=
  ((o.find? name).bind fun s => s.value.toInt?).getD 0

def boolValue (o : Options) (name : String) : Bool :=
  match o.find? name with
  | some s => !s.value.isNothing
  | none => false

def timeSettings (o : Options) : TimeSettings :=
  ⟨o.intValue "Move Overhead", o.intValue "nodestime", o.boolValue "Ponder"⟩

example : standard.timeSettings = ⟨10, 0, false⟩ := by decide +kernel

/-- Sets the entries of a mapping one after another, up to the first that is refused; the table
keeps what was set before it. -/
def setAll (file : String) : List (Value × Value) → Options → Options × Except OptionFault Unit
  | [], o => (o, .ok ())
  | (key, value) :: rest, o =>
    match key with
    | .text name =>
      if (o.find? name).isNone then (o, .error (.unknownInFile name file))
      else
        match o.set name value with
        | .ok o => setAll file rest o
        | .error e => (o, .error e)
    | key => (o, .error (.unknownInFile key.plain file))

end Options
end Zeitnot
