import Zeitnot.Text.DecimalDigit
/-!
Command lines: options with one value each, which a unique beginning of their name is enough to
call, and positional arguments between them. Main function: `Spec.read`.
-/
set_option autoImplicit false

namespace Zeitnot.Cli

structure Flag where
  name : String
  accepts : String → Bool

structure Spec where
  flags : List Flag
  /-- What each positional argument accepts, in order. -/
  positionals : List (String → Bool)

inductive Outcome
  | refused
  | help
  /-- Positional arguments, and options with their values, in the order given. -/
  | given (positionals : List String) (flags : List (String × String))
  deriving DecidableEq, Repr

inductive Token
  | value (text : String)
  | flag (flag : Flag) (value : Option String)
  | help (value : Option String)
  /-- The short form `-h` with further letters. -/
  | shortHelp (rest : List Char)
  | unknown
  /-- The mark after which nothing is an option. -/
  | mark

def helpName : String := "--help"

/-- A minus sign and digits, with at most one point before the last of them. -/
def isNegativeNumber (cs : List Char) : Bool :=
  let isDigit (c : Char) : Bool := (Text.digitValue? c).isSome
  match cs with
  | '-' :: r =>
    let r := if r.getLast? = some '\n' then r.dropLast else r
    match r.dropWhile isDigit with
    | [] => !r.isEmpty
    | '.' :: f => !f.isEmpty && f.all isDigit
    | _ => false
  | _ => false

def splitEquals (cs : List Char) : List Char × Option (List Char) :=
  match cs.dropWhile (· ≠ '=') with
  | _ :: r => (cs.takeWhile (· ≠ '='), some r)
  | [] => (cs, none)

def Spec.named (spec : Spec) (name : String) (value : Option String) : Option Token :=
  if name = helpName then some (.help value)
  else (spec.flags.find? fun f => f.name == name).map fun f => .flag f value

/-- An argument that starts with a hyphen; `none` if it could mean several options. -/
def Spec.hyphened (spec : Spec) (arg : String) : Option Token :=
  let cs := arg.toList
  let (name, value) := splitEquals cs
  let value := value.map String.ofList
  if arg = "-h" then some (.shortHelp [])
  else
    match spec.named arg none with
    | some t => some t
    | none =>
      match if value.isSome then spec.named (String.ofList name) value else none with
      | some t => some t
      | none =>
        let names := helpName :: spec.flags.map (·.name)
        let plain : Token :=
          if isNegativeNumber cs || cs.contains ' ' then .value arg else .unknown
        match cs with
        | '-' :: '-' :: _ =>
          match names.filter fun n => name.isPrefixOf n.toList with
          | [] => some plain
          | [n] => some ((spec.named n value).getD plain)
          | _ => none
        | '-' :: 'h' :: rest => some (.shortHelp rest)
        | _ => some plain

def Spec.tokens (spec : Spec) : List String → Option (List Token)
  | [] => some []
  | arg :: rest =>
    if arg = "--" then some (.mark :: rest.map .value)
    else
      match arg.toList with
      | '-' :: _ :: _ => return (← spec.hyphened arg) :: (← spec.tokens rest)
      | _ => return .value arg :: (← spec.tokens rest)

/-- Letters after `-h` do not matter, unless a value or a further hyphen follows `-h` or what
repeats its letter. -/
def givesHelp : List Char → Bool
  | 'h' :: r => givesHelp r
  | '=' :: _ => false
  | '-' :: _ => false
  | _ => true

structure Progress where
  /-- What the positional arguments still to come accept. -/
  expected : List (String → Bool)
  /-- Positional arguments and options so far, in reverse. -/
  positionals : List String
  flags : List (String × String)
  /-- Whether an argument came that was not expected. -/
  extra : Bool
  /-- Whether the last argument was positional. -/
  settled : Bool

def Progress.outcome (p : Progress) : Outcome :=
  if p.extra || !p.expected.isEmpty then .refused
  else .given p.positionals.reverse p.flags.reverse

def Progress.take (p : Progress) (v : String) : Option Progress :=
  match p.expected with
  | accepts :: expected =>
    if accepts v then
      some { p with expected, positionals := v :: p.positionals, settled := true }
    else none
  | [] => some { p with extra := true }

def Progress.takeFlag (p : Progress) (f : Flag) (v : String) : Option Progress :=
  if f.accepts v then some { p with flags := (f.name, v) :: p.flags, settled := false } else none

/-- Reads tokens. The mark belongs to the positional argument before or after it. -/
def takeTokens (p : Progress) : List Token → Outcome
  | [] => p.outcome
  | .value v :: rest =>
    match p.take v with
    | some p => takeTokens p rest
    | none => .refused
  | .mark :: rest =>
    takeTokens { p with extra := p.extra || (!p.settled && p.expected.isEmpty) } rest
  | .unknown :: rest => takeTokens { p with extra := true } rest
  | .help none :: _ => .help
  | .help (some _) :: _ => .refused
  | .shortHelp more :: _ => if givesHelp more then .help else .refused
  | .flag f (some v) :: rest =>
    match p.takeFlag f v with
    | some p => takeTokens p rest
    | none => .refused
  | .flag f none :: .value v :: rest =>
    match p.takeFlag f v with
    | some p => takeTokens p rest
    | none => .refused
  | .flag _ none :: _ => .refused

def Spec.read (spec : Spec) (args : List String) : Outcome :=
  match spec.tokens args with
  | some ts => takeTokens ⟨spec.positionals, [], [], false, false⟩ ts
  | none => .refused

def lastValue? (flags : List (String × String)) (name : String) : Option String :=
  (flags.reverse.find? fun f => f.1 == name).map (·.2)

end Zeitnot.Cli
