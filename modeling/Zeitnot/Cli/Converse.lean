import Zeitnot.Cli.Arguments
import Zeitnot.Config.Load
import Zeitnot.Uci.Log
set_option autoImplicit false

namespace Zeitnot.Cli
open Uci

def converseSpec : Spec where
  flags := ["--config", "--log-file"].map fun name => ⟨name, fun _ => true⟩
  positionals := []

def defaultLog : String := "TIMEMAN-LOG.txt"

section
variable {S : Type} [Number.Scalar S]

/-- A conversation under the options of a file, if one is named. Without a log nothing is kept in
the journal. -/
def setUp (c : Constants S) (engine : Engine) (clock : NodeClock) (config log : Option String)
    (folder : Folder) : Except LoadFault (Logged S) := do
  let options ← match config with
    | some file => if file.isEmpty then pure Options.standard else Options.ofFile folder file
    | none => pure Options.standard
  let journal := if log.isNone then Journal.silent else .attentive
  pure ⟨State.start engine clock (.fresh c options journal), log, folder⟩

end

structure Conversation where
  out : List String
  complaints : List String
  folder : Folder

inductive ConverseEnding
  | exit (code : Nat) (conversation : Conversation)
  | failed (fault : LoadFault)

def linesFrom (line : List Char) : List Char → List (List Char)
  | [] => if line.isEmpty then [] else [line.reverse]
  | c :: rest => if c = '\n' then line.reverse :: linesFrom [] rest else linesFrom (c :: line) rest

def lines (text : String) : List String := (linesFrom [] text.toList).map String.ofList

def converseCommand (args : List String) (input stamp : String) (clock : NodeClock)
    (folder : Folder) : ConverseEnding :=
  match converseSpec.read args with
  | .refused => .exit 2 ⟨[], [], folder⟩
  | .help => .exit 0 ⟨[], [], folder⟩
  | .given _ flags =>
    let log := (lastValue? flags "--log-file").getD defaultLog
    match setUp Constants.tuned .standard clock (lastValue? flags "--config") (some log) folder with
    | .error fault => .failed fault
    | .ok start =>
      let exchanges := start.converse stamp (lines input)
      let last := (exchanges.getLast?.map (·.2)).getD start
      .exit 0 ⟨exchanges.flatMap (·.1.out), exchanges.flatMap (·.1.complaints), last.folder⟩

end Zeitnot.Cli
