import Zeitnot.Config.Yaml.Schema
import Zeitnot.Config.Yaml.Token
/-!
The nodes of a document. Main function: `compose`.

An anchor names a node, and references by that name stand for it; inside the node itself the name
stands for `again`.
-/
set_option autoImplicit false

namespace Zeitnot.Config.Yaml

inductive Node
  | scalar (tag : Tag) (text : String)
  | sequence (tag : Tag) (items : List Node)
  | mapping (tag : Tag) (entries : List (Node × Node))
  /-- A collection that this node lies in. -/
  | again (isMapping : Bool)
  deriving Repr, Inhabited

structure Composer where
  tokens : List Token
  handles : List (String × String)
  anchors : List (String × Node)
  deriving Repr

abbrev Compose := StateT Composer (Except Fault)

namespace Compose

def fail {α : Type} : Compose α := fun _ => .error .malformed

def peek : Compose Token := fun c => .ok (c.tokens.headD .streamEnd, c)

def skip : Compose Unit := modify fun c => { c with tokens := c.tokens.tail }

def take (t : Token) : Compose Bool := do
  if (← peek) == t then
    skip
    return true
  else return false

def expect (t : Token) : Compose Unit := do if ← take t then pure () else fail

def isNext (ts : List Token) : Compose Bool := return ts.contains (← peek)

/-- Gives a node a name; a name may not be given twice. -/
def name (anchor : Option String) (n : Node) : Compose Unit := do
  match anchor with
  | none => pure ()
  | some a =>
    if (← get).anchors.any (·.1 == a) then fail
    else modify fun c => { c with anchors := (a, n) :: c.anchors }

/-- Gives a name that stood for a node still open to the whole node. -/
def rename (anchor : Option String) (n : Node) : Compose Node := do
  match anchor with
  | none => pure ()
  | some a => modify fun c => { c with anchors := (a, n) :: c.anchors }
  return n

def named (a : String) : Compose Node := do
  match (← get).anchors.find? (·.1 == a) with
  | some (_, n) => return n
  | none => fail

def tagName (handle : Option String) (suffix : String) : Compose String := do
  match handle with
  | none => return suffix
  | some h =>
    match (← get).handles.find? (·.1 == h) with
    | some (_, meaning) => return meaning ++ suffix
    | none => fail

def properties : Compose (Option String × Option String) := do
  match ← peek with
  | .anchor a =>
    skip
    match ← peek with
    | .tag handle suffix =>
      skip
      return (some a, some (← tagName handle suffix))
    | _ => return (some a, none)
  | .tag handle suffix =>
    skip
    match ← peek with
    | .anchor a =>
      skip
      return (some a, some (← tagName handle suffix))
    | _ => return (none, some (← tagName handle suffix))
  | _ => return (none, none)

/-- The tag of a scalar. The tag `!` alone makes a quoted scalar count as plain. -/
def scalarTag (tag : Option String) (plain : Bool) (text : String) : Tag :=
  match tag with
  | none => if plain then .ofPlain text else .str
  | some "!" => .ofPlain text
  | some name => .ofName name

def collectionTag (tag : Option String) (usual : Tag) : Tag :=
  match tag with
  | none => usual
  | some "!" => usual
  | some name => .ofName name

/-- What stands where nothing is written. -/
def empty : Node := .scalar .null ""

inductive Place
  | flow
  /-- In a document or a sequence, where indented collections may begin. -/
  | block
  /-- As key or value of an indented mapping, where a sequence need not be indented further. -/
  | entry
  deriving DecidableEq, Repr

def collection (anchor : Option String) (isMapping : Bool) (read : Compose Node) :
    Compose Node := do
  name anchor (.again isMapping)
  rename anchor (← read)

mutual

def node (place : Place) : (fuel : Nat) → Compose Node
  | 0 => fail
  | fuel + 1 => do
    if let .reference a ← peek then
      skip
      return ← named a
    let (anchor, tag) ← properties
    let seqTag := collectionTag tag .seq
    let mapTag := collectionTag tag .map
    match ← peek with
    | .scalar text plain =>
      skip
      let n := Node.scalar (scalarTag tag plain text) text
      name anchor n
      return n
    | .flowSequenceStart =>
      skip
      collection anchor false do return .sequence seqTag (← flowItems true fuel)
    | .flowMappingStart =>
      skip
      collection anchor true do return .mapping mapTag (← flowEntries true fuel)
    | next =>
      if next == .blockEntry && place == .entry then
        collection anchor false do return .sequence seqTag (← levelItems fuel)
      else if next == .sequenceStart && place != .flow then
        skip
        collection anchor false do return .sequence seqTag (← blockItems fuel)
      else if next == .mappingStart && place != .flow then
        skip
        collection anchor true do return .mapping mapTag (← blockEntries fuel)
      else if anchor.isSome || tag.isSome then
        let n := Node.scalar (scalarTag tag tag.isNone "") ""
        name anchor n
        return n
      else fail

def nodeBefore (stops : List Token) (place : Place) : (fuel : Nat) → Compose Node
  | 0 => fail
  | fuel + 1 => do if ← isNext stops then return empty else node place fuel

def valueBefore (stops : List Token) (place : Place) : (fuel : Nat) → Compose Node
  | 0 => fail
  | fuel + 1 => do if ← take .value then nodeBefore stops place fuel else return empty

def blockItems : (fuel : Nat) → Compose (List Node)
  | 0 => fail
  | fuel + 1 => do
    if ← take .blockEntry then
      let n ← nodeBefore [.blockEntry, .blockEnd] .block fuel
      return n :: (← blockItems fuel)
    else if ← take .blockEnd then return []
    else fail

/-- Entries of a sequence that is not indented further than the mapping around it. -/
def levelItems : (fuel : Nat) → Compose (List Node)
  | 0 => fail
  | fuel + 1 => do
    if ← take .blockEntry then
      let n ← nodeBefore [.blockEntry, .key, .value, .blockEnd] .block fuel
      return n :: (← levelItems fuel)
    else return []

def blockEntries : (fuel : Nat) → Compose (List (Node × Node))
  | 0 => fail
  | fuel + 1 => do
    let stops : List Token := [.key, .value, .blockEnd]
    if ← take .key then
      let k ← nodeBefore stops .entry fuel
      let v ← valueBefore stops .entry fuel
      return (k, v) :: (← blockEntries fuel)
    else if ← take .blockEnd then return []
    else fail

/-- Entries of a sequence between brackets and its end. An entry with a key is a mapping of its
own. -/
def flowItems (isFirst : Bool) : (fuel : Nat) → Compose (List Node)
  | 0 => fail
  | fuel + 1 => do
    if ← take .flowSequenceEnd then return []
    unless isFirst do expect .flowEntry
    if ← take .key then
      let k ← nodeBefore [.value, .flowEntry, .flowSequenceEnd] .flow fuel
      let v ← valueBefore [.flowEntry, .flowSequenceEnd] .flow fuel
      return .mapping .map [(k, v)] :: (← flowItems false fuel)
    else if ← take .flowSequenceEnd then return []
    else
      let n ← node .flow fuel
      return n :: (← flowItems false fuel)

def flowEntries (isFirst : Bool) : (fuel : Nat) → Compose (List (Node × Node))
  | 0 => fail
  | fuel + 1 => do
    if ← take .flowMappingEnd then return []
    unless isFirst do expect .flowEntry
    if ← take .key then
      let k ← nodeBefore [.value, .flowEntry, .flowMappingEnd] .flow fuel
      let v ← valueBefore [.flowEntry, .flowMappingEnd] .flow fuel
      return (k, v) :: (← flowEntries false fuel)
    else if ← take .flowMappingEnd then return []
    else
      let k ← node .flow fuel
      return (k, empty) :: (← flowEntries false fuel)

end

/-! ### Documents -/

def standardHandles : List (String × String) := [("!", "!"), ("!!", standardTags)]

/-- Reads directives. A version may be given once and must begin with one; a handle may be given a
meaning once. -/
def directives (versioned : Bool) : (fuel : Nat) → Compose Unit
  | 0 => fail
  | fuel + 1 => do
    match ← peek with
    | .version major =>
      skip
      if versioned || major != 1 then fail
      directives true fuel
    | .handle h meaning =>
      skip
      if (← get).handles.any (·.1 == h) then fail
      modify fun c => { c with handles := (h, meaning) :: c.handles }
      directives versioned fuel
    | .directive =>
      skip
      directives versioned fuel
    | _ => modify fun c => { c with handles := c.handles ++ standardHandles }

def isDirective : Token → Bool
  | .version _ => true
  | .handle _ _ => true
  | .directive => true
  | _ => false

def document (fuel : Nat) : Compose (Option Node) := do
  let next ← peek
  if next == .streamEnd then return none
  let n ←
    if isDirective next || next == .documentStart then do
      directives false fuel
      expect .documentStart
      let next ← peek
      if isDirective next || [.documentStart, .documentEnd, .streamEnd].contains next then
        pure empty
      else node .block fuel
    else do
      directives false fuel
      node .block fuel
  modify fun c => { c with tokens := c.tokens.dropWhile (· == .documentEnd) }
  if (← peek) == .streamEnd then return some n else fail

end Compose

/-- The document that tokens make. No recursion goes deeper than a few calls for each token. -/
def compose (tokens : List Token) : Except Fault (Option Node) :=
  (Compose.document (4 * tokens.length + 4)).run' ⟨tokens, [], []⟩

end Zeitnot.Config.Yaml
