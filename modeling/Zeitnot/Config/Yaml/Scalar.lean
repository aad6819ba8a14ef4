import Zeitnot.Config.Yaml.Cursor
/-!
The text of scalars: between quotes, in indented blocks, and plain. A line break inside a quoted or
plain scalar reads as a space, and further ones as themselves.
-/
set_option autoImplicit false

namespace Zeitnot.Config.Yaml

/-! ### Quoted scalars -/

def escape? : Char → Option Char
  | '0' => some '\x00'
  | 'a' => some '\x07'
  | 'b' => some '\x08'
  | 't' => some '\t'
  | '\t' => some '\t'
  | 'n' => some '\n'
  | 'v' => some '\x0b'
  | 'f' => some '\x0c'
  | 'r' => some '\r'
  | 'e' => some '\x1b'
  | ' ' => some ' '
  | '"' => some '"'
  | '\\' => some '\\'
  | '/' => some '/'
  | 'N' => some '\x85'
  | '_' => some '\xa0'
  | 'L' => some '\u2028'
  | 'P' => some '\u2029'
  | _ => none

def codeLength? : Char → Option Nat
  | 'x' => some 2
  | 'u' => some 4
  | 'U' => some 8
  | _ => none

def hexNumber (ds : List Char) : Nat :=
  ds.foldl (fun n d => n * 16 + (Text.digitIn? 16 d).getD 0) 0

/-- The character of a code point; one of half a pair reads as the replacement character. -/
def codeChar (code : Nat) : Char :=
  if 0xd800 ≤ code ∧ code ≤ 0xdfff then Char.ofNat 0xfffd else Char.ofNat code

/-- Line breaks inside quotes, with blanks around them; no document mark may start a line. -/
def quotedBreaks : (fuel : Nat) → List Char → Cursor → Except Fault (List Char × Cursor)
  | 0, _, _ => .error .malformed
  | fuel + 1, acc, c =>
    if c.atDocumentMark then .error .malformed
    else
      let c := c.skipWhile fun x => x == ' ' || x == '\t'
      if isBreak c.peek then
        let (b, c) := c.lineBreak
        quotedBreaks fuel (acc ++ b) c
      else .ok (acc, c)

def quotedSpaces (c : Cursor) : Except Fault (List Char × Cursor) :=
  let (blanks, c) := c.takeWhile fun x => x == ' ' || x == '\t'
  if isEnd c.peek then .error .malformed
  else if isBreak c.peek then
    let (b, c) := c.lineBreak
    match quotedBreaks (c.rest.length + 1) [] c with
    | .error fault => .error fault
    | .ok (breaks, c) =>
      let joint := if b ≠ ['\n'] then b else if breaks.isEmpty then [' '] else []
      .ok (joint ++ breaks, c)
  else .ok (blanks, c)

def escapeAt (c : Cursor) : Except Fault (List Char × Cursor) :=
  let x := c.peek
  match escape? x, codeLength? x with
  | some e, _ => .ok ([e], c.next)
  | none, some n =>
    let c := c.next
    let ds := c.rest.take n
    if ds.length = n ∧ ds.all isHexDigit then
      let code := hexNumber ds
      if code ≤ 0x10ffff then .ok ([codeChar code], Cursor.skip n c) else .error (.codePoint code)
    else .error .malformed
  | none, none =>
    if isBreak x then
      let c := c.lineBreak.2
      quotedBreaks (c.rest.length + 1) [] c
    else .error .malformed

def quotedFrom (double : Bool) :
    (fuel : Nat) → List Char → Cursor → Except Fault (List Char × Cursor)
  | 0, _, _ => .error .malformed
  | fuel + 1, acc, c =>
    let quote := if double then '"' else '\''
    let x := c.peek
    if isEnd x then .error .malformed
    else if !double && x == '\'' && c.peekAt 1 == '\'' then
      quotedFrom double fuel (acc ++ ['\'']) c.next.next
    else if x == quote then .ok (acc, c.next)
    else if double && x == '\\' then
      match escapeAt c.next with
      | .error fault => .error fault
      | .ok (e, c) => quotedFrom double fuel (acc ++ e) c
    else if x == ' ' || x == '\t' || isBreak x then
      match quotedSpaces c with
      | .error fault => .error fault
      | .ok (s, c) => quotedFrom double fuel (acc ++ s) c
    else quotedFrom double fuel (acc ++ [x]) c.next

def quotedScalar (c : Cursor) : Except Fault (String × Cursor) :=
  (quotedFrom (c.peek == '"') (c.rest.length + 1) [] c.next).map fun (s, c) => (String.ofList s, c)

/-! ### Block scalars -/

inductive Chomping
  | strip
  | clip
  | keep
  deriving DecidableEq, Repr

def chomping? (c : Char) : Option Chomping :=
  if c == '+' then some .keep else if c == '-' then some .strip else none

def increment? (c : Char) : Option Nat := if '0' ≤ c ∧ c ≤ '9' then some (c.toNat - 48) else none

/-- The signs after the start of a block: chomping and indentation, in either order. -/
def blockHeader (c : Cursor) : Except Fault ((Chomping × Option Nat) × Cursor) :=
  let (chomping, c) := match chomping? c.peek with
    | some k => (some k, c.next)
    | none => (none, c)
  let (increment, c) := match increment? c.peek with
    | some n => (some n, c.next)
    | none => (none, c)
  let (chomping, c) := match chomping, increment, chomping? c.peek with
    | none, some _, some k => (some k, c.next)
    | chomping, _, _ => (chomping, c)
  if increment = some 0 ∨ isGap c.peek = false then .error .malformed
  else
    match c.endLine? with
    | some c => .ok ((chomping.getD .clip, increment), c)
    | none => .error .malformed

/-- Empty lines, and the greatest column that their spaces reach. -/
def leadingLines : (fuel : Nat) → List Char → Nat → Cursor → List Char × Nat × Cursor
  | 0, breaks, deepest, c => (breaks, deepest, c)
  | fuel + 1, breaks, deepest, c =>
    if c.peek == ' ' then leadingLines fuel breaks (max deepest c.next.column) c.next
    else if isBreak c.peek then
      let (b, c) := c.lineBreak
      leadingLines fuel (breaks ++ b) deepest c
    else (breaks, deepest, c)

def indentTo (column : Nat) : (fuel : Nat) → Cursor → Cursor
  | 0, c => c
  | fuel + 1, c =>
    if c.column < column && c.peek == ' ' then indentTo column fuel c.next else c

def blockBreaks (indent : Nat) : (fuel : Nat) → List Char → Cursor → List Char × Cursor
  | 0, breaks, c => (breaks, c)
  | fuel + 1, breaks, c =>
    let c := indentTo indent indent c
    if isBreak c.peek then
      let (b, c) := c.lineBreak
      blockBreaks indent fuel (breaks ++ b) c
    else (breaks, c)

/-- The lines of a block. `pending` holds the break that ended the last line, `breaks` the empty
lines after it. -/
def blockLines (folded : Bool) (indent : Nat) :
    (fuel : Nat) → (acc pending breaks : List Char) → Cursor →
      (List Char × List Char × List Char) × Cursor
  | 0, acc, pending, breaks, c => ((acc, pending, breaks), c)
  | fuel + 1, acc, pending, breaks, c =>
    if c.column = indent ∧ isEnd c.peek = false then
      let isText (x : Char) : Bool := x != ' ' && x != '\t'
      let leads := isText c.peek
      let (text, c) := c.takeWhile (!isBreakOrEnd ·)
      let acc := acc ++ breaks ++ text
      let (b, c) := c.lineBreak
      let (breaks, c) := blockBreaks indent (c.rest.length + 1) [] c
      if c.column = indent ∧ isEnd c.peek = false then
        let joint :=
          if folded && b == ['\n'] && leads && isText c.peek then
            if breaks.isEmpty then [' '] else []
          else b
        blockLines folded indent fuel (acc ++ joint) b breaks c
      else ((acc, b, breaks), c)
    else ((acc, pending, breaks), c)

def blockScalar (parentIndent : Int) (c : Cursor) : Except Fault (String × Cursor) :=
  let folded := c.peek == '>'
  match blockHeader c.next with
  | .error fault => .error fault
  | .ok ((chomping, increment), c) =>
    let least := (max (parentIndent + 1) 1).toNat
    let (breaks, indent, c) := match increment with
      | some n =>
        let indent := least + n - 1
        let (breaks, c) := blockBreaks indent (c.rest.length + 1) [] c
        (breaks, indent, c)
      | none =>
        let (breaks, deepest, c) := leadingLines (c.rest.length + 1) [] 0 c
        (breaks, max least deepest, c)
    let ((text, pending, breaks), c) := blockLines folded indent (c.rest.length + 1) [] [] breaks c
    let tail := match chomping with
      | .strip => []
      | .clip => pending
      | .keep => pending ++ breaks
    .ok (String.ofList (text ++ tail), c)

/-! ### Plain scalars -/

def isFlowSign (c : Char) : Bool := c == ',' || c == '[' || c == ']' || c == '\x7b' || c == '\x7d'

def endsPlain (inFlow : Bool) (x after : Char) : Bool :=
  isGapOrTab x || (x == ':' && (isGapOrTab after || (inFlow && isFlowSign after))) ||
    (inFlow && (isFlowSign x || x == '?'))

def plainPiece (inFlow : Bool) : List Char → List Char
  | [] => []
  | x :: rest =>
    if endsPlain inFlow x (rest.headD '\x00') then [] else x :: plainPiece inFlow rest

/-- Empty lines after a line of a plain scalar; `none` before a document mark. -/
def plainBreaks : (fuel : Nat) → List Char → Cursor → Option (List Char) × Cursor
  | 0, breaks, c => (some breaks, c)
  | fuel + 1, breaks, c =>
    if c.peek == ' ' then plainBreaks fuel breaks c.next
    else if isBreak c.peek then
      let (b, c) := c.lineBreak
      if c.atDocumentMark then (none, c) else plainBreaks fuel (breaks ++ b) c
    else (some breaks, c)

/-- Spaces after a piece of a plain scalar, folded if a line ends there, and whether one does.
Nothing is given where the scalar must end. -/
def plainSpaces (c : Cursor) : (List Char × Bool) × Cursor :=
  let (blanks, c) := c.takeWhile (· == ' ')
  if isBreak c.peek then
    let (b, c) := c.lineBreak
    if c.atDocumentMark then (([], true), c)
    else
      match plainBreaks (c.rest.length + 1) [] c with
      | (none, c) => (([], true), c)
      | (some breaks, c) =>
        let joint := if b ≠ ['\n'] then b else if breaks.isEmpty then [' '] else []
        ((joint ++ breaks, true), c)
  else ((blanks, false), c)

/-- Pieces of a plain scalar. `broken` says that a line has ended since the last piece. -/
def plainFrom (inFlow : Bool) (indent : Int) :
    (fuel : Nat) → (acc spaces : List Char) → (broken : Bool) → Cursor →
      (List Char × Bool) × Cursor
  | 0, acc, _, broken, c => ((acc, broken), c)
  | fuel + 1, acc, spaces, broken, c =>
    if c.peek == '#' then ((acc, broken), c)
    else
      let piece := plainPiece inFlow c.rest
      if piece.isEmpty then ((acc, broken), c)
      else
        let acc := acc ++ spaces ++ piece
        let ((spaces, broken), c) := plainSpaces (Cursor.skip piece.length c)
        if spaces.isEmpty || c.peek == '#' || (!inFlow && (c.column : Int) < indent) then
          ((acc, broken), c)
        else plainFrom inFlow indent fuel acc spaces broken c

def plainScalar (inFlow : Bool) (parentIndent : Int) (c : Cursor) : (String × Bool) × Cursor :=
  let ((text, broken), c) := plainFrom inFlow (parentIndent + 1) (c.rest.length + 1) [] [] false c
  ((String.ofList text, broken), c)

end Zeitnot.Config.Yaml
