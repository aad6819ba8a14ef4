import Zeitnot.Config.Yaml.Scalar
import Zeitnot.Config.Yaml.Token
/-!
A YAML text as tokens. Main function: `scan`.

Only the colon after a node tells that the node was a key. So the scanner remembers, for each depth
of brackets, the last place where a key may have begun, and puts the token `key` there when the
colon comes.
-/
set_option autoImplicit false

namespace Zeitnot.Config.Yaml

/-! ### Words -/

def isTagChar (c : Char) : Bool :=
  isWordChar c || ";/?:@&=+$,.!~*'()[]".toList.contains c

def percentBytes : (fuel : Nat) → Cursor → Except Fault (List UInt8 × Cursor)
  | 0, _ => .error .malformed
  | fuel + 1, c =>
    if c.peek == '%' then
      let ds := c.next.rest.take 2
      if ds.length = 2 ∧ ds.all isHexDigit then
        let byte := UInt8.ofNat (hexNumber ds)
        (percentBytes fuel (Cursor.skip 3 c)).map fun (bs, c) => (byte :: bs, c)
      else .error .malformed
    else .ok ([], c)

def tagTextFrom : (fuel : Nat) → String → Cursor → Except Fault (String × Cursor)
  | 0, _, _ => .error .malformed
  | fuel + 1, acc, c =>
    if c.peek == '%' then
      match percentBytes (c.rest.length + 1) c with
      | .error fault => .error fault
      | .ok (bs, c) =>
        match String.fromUTF8? (ByteArray.mk bs.toArray) with
        | some s => tagTextFrom fuel (acc ++ s) c
        | none => .error .malformed
    else if isTagChar c.peek then tagTextFrom fuel (acc.push c.peek) c.next
    else .ok (acc, c)

def tagText (c : Cursor) : Except Fault (String × Cursor) :=
  if c.peek == '%' || isTagChar c.peek then tagTextFrom (c.rest.length + 1) "" c
  else .error .malformed

/-- A handle: one exclamation mark, or a word between two. -/
def tagHandle (c : Cursor) : Except Fault (String × Cursor) :=
  if c.peek != '!' then .error .malformed
  else if c.peekAt 1 == ' ' then .ok ("!", c.next)
  else
    let (w, c) := c.next.takeWhile isWordChar
    if c.peek == '!' then .ok (String.ofList ('!' :: w ++ ['!']), c.next) else .error .malformed

/-- Whether a word that starts with an exclamation mark has another one. -/
def usesHandle (c : Cursor) : Bool := (c.next.rest.takeWhile (!isGap ·)).contains '!'

def tagToken (c : Cursor) : Except Fault (Token × Cursor) := do
  let (token, c) ←
    if c.peekAt 1 == '<' then do
      let (suffix, c) ← tagText c.next.next
      if c.peek != '>' then .error .malformed
      pure (Token.tag none suffix, c.next)
    else if isGapOrTab (c.peekAt 1) then pure (Token.tag none "!", c.next)
    else do
      let (handle, c) ← if usesHandle c then tagHandle c else pure ("!", c.next)
      let (suffix, c) ← tagText c
      pure (Token.tag (some handle) suffix, c)
  if isGap c.peek then pure (token, c) else .error .malformed

def anchorName (c : Cursor) : Except Fault (String × Cursor) :=
  match c.next.word? with
  | some (name, c) =>
    if isGapOrTab c.peek || "?:,]\x7d%@\x60".toList.contains c.peek then .ok (name, c)
    else .error .malformed
  | none => .error .malformed

def versionNumber (c : Cursor) : Except Fault (Nat × Cursor) :=
  let (ds, c) := c.takeWhile fun x => '0' ≤ x && x ≤ '9'
  if ds.isEmpty then .error .malformed
  else .ok (ds.foldl (fun n d => n * 10 + (d.toNat - 48)) 0, c)

def directiveToken (c : Cursor) : Except Fault (Token × Cursor) := do
  let some (name, c) := c.next.word? | .error .malformed
  if !isGap c.peek then .error .malformed
  let (token, c) ←
    if name == "YAML" then do
      let (major, c) ← versionNumber (c.skipWhile (· == ' '))
      if c.peek != '.' then .error .malformed
      let (_, c) ← versionNumber c.next
      if !isGap c.peek then .error .malformed
      pure (Token.version major, c)
    else if name == "TAG" then do
      let (handle, c) ← tagHandle (c.skipWhile (· == ' '))
      if c.peek != ' ' then .error .malformed
      let (meaning, c) ← tagText (c.skipWhile (· == ' '))
      if !isGap c.peek then .error .malformed
      pure (Token.handle handle meaning, c)
    else pure (Token.directive, c.skipWhile (!isBreakOrEnd ·))
  match c.endLine? with
  | some c => pure (token, c)
  | none => .error .malformed

/-! ### The scanner -/

structure KeyPlace where
  /-- How many brackets are open there. -/
  depth : Nat
  /-- How many tokens stand before it. -/
  position : Nat
  /-- Whether nothing but a key can begin there. -/
  required : Bool
  index : Nat
  line : Nat
  column : Nat
  deriving DecidableEq, Repr

/-- A key and its colon stand on one line, and the key is no longer than this. -/
def keyLimit : Nat := 1024

structure Scanner where
  cursor : Cursor
  tokens : List Token
  depth : Nat
  /-- Columns of the open indented collections, the innermost first. -/
  indents : List Nat
  /-- Whether a key may begin here. -/
  allowKey : Bool
  places : List KeyPlace
  deriving DecidableEq, Repr

namespace Scanner

def ofText (text : String) : Scanner :=
  let start : Cursor := ⟨text.toList, 0, 0, 0⟩
  ⟨if start.peek == byteOrderMark then start.next else start, [], 0, [], true, []⟩

def column (s : Scanner) : Nat := s.cursor.column

/-- The column of the innermost indented collection, before the first if there is none. -/
def indent (s : Scanner) : Int :=
  match s.indents with
  | [] => -1
  | c :: _ => c

def push (t : Token) (s : Scanner) : Scanner := { s with tokens := s.tokens ++ [t] }

def insertAt (position : Nat) (t : Token) (s : Scanner) : Scanner :=
  { s with tokens := s.tokens.take position ++ t :: s.tokens.drop position }

def move (c : Cursor) (s : Scanner) : Scanner := { s with cursor := c }

def setAllowKey (b : Bool) (s : Scanner) : Scanner := { s with allowKey := b }

def place? (s : Scanner) : Option KeyPlace := s.places.find? (·.depth == s.depth)

def dropPlace (s : Scanner) : Scanner := { s with places := s.places.filter (·.depth != s.depth) }

/-- Gives up the place of this depth; none that needed a key may be given up. -/
def forget (s : Scanner) : Except Fault Scanner :=
  if s.place?.any (·.required) then .error .malformed else .ok s.dropPlace

def forgetOld (s : Scanner) : Except Fault Scanner :=
  let isOld (p : KeyPlace) : Bool :=
    p.line != s.cursor.line || decide (p.index + keyLimit < s.cursor.index)
  if s.places.any fun p => isOld p && p.required then .error .malformed
  else .ok { s with places := s.places.filter fun p => !isOld p }

def remember (s : Scanner) : Except Fault Scanner :=
  if s.allowKey then do
    let t ← s.forget
    let p : KeyPlace :=
      ⟨s.depth, s.tokens.length, s.depth == 0 && s.indent == s.column, s.cursor.index,
        s.cursor.line, s.column⟩
    pure { t with places := p :: t.places }
  else .ok s

def closeTo (column : Int) (s : Scanner) : Scanner :=
  if s.depth = 0 then
    let kept := s.indents.dropWhile fun (c : Nat) => decide (column < (c : Int))
    let closed := s.indents.length - kept.length
    { s with indents := kept, tokens := s.tokens ++ List.replicate closed .blockEnd }
  else s

/-- Opens an indented collection if its column lies right of the innermost; its token is put in at a
position. -/
def openAt (column position : Nat) (t : Token) (s : Scanner) : Scanner :=
  if s.indent < column then { s.insertAt position t with indents := column :: s.indents } else s

/-- Outside brackets a key or an entry can begin only where keys may; then the collection that it
belongs to is opened if it is not. -/
def beginBlock (t : Token) (s : Scanner) : Except Fault Scanner :=
  if s.depth = 0 then
    if s.allowKey then .ok (s.openAt s.column s.tokens.length t) else .error .malformed
  else .ok s

/-- Spaces, comments and line breaks. Outside brackets a key may begin on each new line. -/
def skipGap : (fuel : Nat) → Scanner → Scanner
  | 0, s => s
  | fuel + 1, s =>
    let c := s.cursor.skipWhile (· == ' ')
    let c := if c.peek == '#' then c.skipWhile (!isBreakOrEnd ·) else c
    if isBreak c.peek then
      skipGap fuel { s with cursor := c.lineBreak.2, allowKey := s.allowKey || s.depth == 0 }
    else { s with cursor := c }

/-! ### Tokens -/

def single (t : Token) (s : Scanner) : Scanner := (s.move s.cursor.next).push t

/-- What stands between documents ends all indented collections. -/
def betweenDocuments (s : Scanner) : Except Fault Scanner := do
  let s ← (s.closeTo (-1)).forget
  pure (s.setAllowKey false)

def fetchDirective (s : Scanner) : Except Fault Scanner := do
  let s ← s.betweenDocuments
  let (t, c) ← directiveToken s.cursor
  pure ((s.move c).push t)

def fetchDocumentMark (t : Token) (s : Scanner) : Except Fault Scanner := do
  let s ← s.betweenDocuments
  pure ((s.move (Cursor.skip 3 s.cursor)).push t)

def fetchOpening (t : Token) (s : Scanner) : Except Fault Scanner := do
  let s ← s.remember
  pure ({ s with depth := s.depth + 1, allowKey := true }.single t)

def fetchClosing (t : Token) (s : Scanner) : Except Fault Scanner := do
  let s ← s.forget
  if s.depth = 0 then .error .malformed
  else pure ({ s with depth := s.depth - 1, allowKey := false }.single t)

def fetchFlowEntry (s : Scanner) : Except Fault Scanner := do
  let s ← s.forget
  pure ((s.setAllowKey true).single .flowEntry)

def fetchBlockEntry (s : Scanner) : Except Fault Scanner := do
  let s ← s.beginBlock .sequenceStart
  let s ← s.forget
  pure ((s.setAllowKey true).single .blockEntry)

def fetchKey (s : Scanner) : Except Fault Scanner := do
  let s ← s.beginBlock .mappingStart
  let s ← s.forget
  pure ((s.setAllowKey (s.depth == 0)).single .key)

/-- A colon after a key, or one whose key is empty. -/
def fetchValue (s : Scanner) : Except Fault Scanner :=
  match s.place? with
  | some p =>
    let s := s.dropPlace.insertAt p.position .key
    let s := if s.depth = 0 then s.openAt p.column p.position .mappingStart else s
    .ok ((s.setAllowKey false).single .value)
  | none => do
    let s ← s.beginBlock .mappingStart
    pure ((s.setAllowKey (s.depth == 0)).single .value)

def fetchWord (read : Cursor → Except Fault (Token × Cursor)) (s : Scanner) :
    Except Fault Scanner := do
  let s ← s.remember
  let (t, c) ← read s.cursor
  pure (((s.setAllowKey false).move c).push t)

def fetchBlockScalar (s : Scanner) : Except Fault Scanner := do
  let s ← s.forget
  let (text, c) ← blockScalar s.indent s.cursor
  pure (((s.setAllowKey true).move c).push (.scalar text false))

def fetchPlain (s : Scanner) : Except Fault Scanner := do
  let s ← s.remember
  let ((text, broken), c) := plainScalar (0 < s.depth) s.indent s.cursor
  pure (((s.setAllowKey broken).move c).push (.scalar text true))

def startsPlain (inFlow : Bool) (c : Cursor) : Bool :=
  let x := c.peek
  let isSign := isGapOrTab x || isFlowSign x || "-?:#&*!|>'\"%@\x60".toList.contains x
  !isSign || (!isGapOrTab (c.peekAt 1) && (x == '-' || (!inFlow && (x == '?' || x == ':'))))

/-- The next token, and with it those that it closes or opens. Nothing is left to fetch at the end
of the text. -/
def fetch (s : Scanner) : Except Fault Scanner :=
  let c := s.cursor
  let x := c.peek
  let inFlow : Bool := 0 < s.depth
  let atGap := isGapOrTab (c.peekAt 1)
  if x == '%' && c.column == 0 then s.fetchDirective
  else if c.column == 0 && c.atDocumentMark then
    s.fetchDocumentMark (if x == '-' then .documentStart else .documentEnd)
  else if x == '[' then s.fetchOpening .flowSequenceStart
  else if x == '\x7b' then s.fetchOpening .flowMappingStart
  else if x == ']' then s.fetchClosing .flowSequenceEnd
  else if x == '\x7d' then s.fetchClosing .flowMappingEnd
  else if x == ',' then s.fetchFlowEntry
  else if x == '-' && atGap then s.fetchBlockEntry
  else if x == '?' && (inFlow || atGap) then s.fetchKey
  else if x == ':' && (inFlow || atGap) then s.fetchValue
  else if x == '*' then s.fetchWord fun c => (anchorName c).map fun (n, c) => (.reference n, c)
  else if x == '&' then s.fetchWord fun c => (anchorName c).map fun (n, c) => (.anchor n, c)
  else if x == '!' then s.fetchWord tagToken
  else if (x == '|' || x == '>') && !inFlow then s.fetchBlockScalar
  else if x == '"' || x == '\'' then
    s.fetchWord fun c => (quotedScalar c).map fun (text, c) => (.scalar text false, c)
  else if startsPlain inFlow c then s.fetchPlain
  else .error .malformed

def finish : (fuel : Nat) → Scanner → Except Fault (List Token)
  | 0, _ => .error .malformed
  | fuel + 1, s => do
    let s ← (s.skipGap (s.cursor.rest.length + 1)).forgetOld
    let s := s.closeTo s.column
    if isEnd s.cursor.peek then
      let s ← (s.closeTo (-1)).forget
      pure (s.tokens ++ [.streamEnd])
    else finish fuel (← s.fetch)

end Scanner

def scan (text : String) : Except Fault (List Token) :=
  if text.toList.all isAllowed then Scanner.finish (text.length + 1) (Scanner.ofText text)
  else .error .malformed

end Zeitnot.Config.Yaml
