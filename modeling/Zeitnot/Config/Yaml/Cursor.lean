import Zeitnot.Config.Yaml.Fault
/-!
A place in a YAML text, with its line and column, and the classes of characters that tell where a
word ends. Past the end of the text every character is the null character.
-/
set_option autoImplicit false

namespace Zeitnot.Config.Yaml

structure Cursor where
  rest : List Char
  index : Nat
  line : Nat
  column : Nat
  deriving DecidableEq, Repr

def isBreak (c : Char) : Bool :=
  c == '\n' || c == '\r' || c == '\x85' || c == '\u2028' || c == '\u2029'

def isEnd (c : Char) : Bool := c == '\x00'

def isBreakOrEnd (c : Char) : Bool := isBreak c || isEnd c

def isGap (c : Char) : Bool := c == ' ' || isBreakOrEnd c

def isGapOrTab (c : Char) : Bool := c == '\t' || isGap c

def isWordChar (c : Char) : Bool :=
  ('0' ≤ c && c ≤ '9') || ('A' ≤ c && c ≤ 'Z') || ('a' ≤ c && c ≤ 'z') || c == '-' || c == '_'

def isHexDigit (c : Char) : Bool :=
  ('0' ≤ c && c ≤ '9') || ('A' ≤ c && c ≤ 'F') || ('a' ≤ c && c ≤ 'f')

def byteOrderMark : Char := Char.ofNat 0xfeff

namespace Cursor

def peekAt (c : Cursor) (n : Nat) : Char := c.rest.getD n '\x00'

def peek (c : Cursor) : Char := c.rest.headD '\x00'

def starts (c : Cursor) (s : String) : Bool := s.toList.isPrefixOf c.rest

def next (c : Cursor) : Cursor :=
  match c.rest with
  | [] => c
  | x :: rest =>
    if isBreak x && !(x == '\r' && rest.head? == some '\n') then
      ⟨rest, c.index + 1, c.line + 1, 0⟩
    else
      ⟨rest, c.index + 1, c.line, if x == byteOrderMark then c.column else c.column + 1⟩

def skip : (n : Nat) → Cursor → Cursor
  | 0, c => c
  | n + 1, c => skip n c.next

def takeWhile (c : Cursor) (p : Char → Bool) : List Char × Cursor :=
  let taken := c.rest.takeWhile p
  (taken, skip taken.length c)

def skipWhile (c : Cursor) (p : Char → Bool) : Cursor := (c.takeWhile p).2

/-- A line break, as it counts in a scalar, and the cursor after it; nothing if there is none. -/
def lineBreak (c : Cursor) : List Char × Cursor :=
  let x := c.peek
  if x == '\r' && c.peekAt 1 == '\n' then (['\n'], c.next.next)
  else if x == '\n' || x == '\r' || x == '\x85' then (['\n'], c.next)
  else if x == '\u2028' || x == '\u2029' then ([x], c.next)
  else ([], c)

def atDocumentMark (c : Cursor) : Bool :=
  (c.starts "---" || c.starts "...") && isGapOrTab (c.peekAt 3)

/-- The cursor after the spaces, the comment and the break that may end a line; `none` if there is
something else. -/
def endLine? (c : Cursor) : Option Cursor :=
  let c := c.skipWhile (· == ' ')
  let c := if c.peek == '#' then c.skipWhile (!isBreakOrEnd ·) else c
  if isBreakOrEnd c.peek then some c.lineBreak.2 else none

def word? (c : Cursor) : Option (String × Cursor) :=
  let (w, c) := c.takeWhile isWordChar
  if w.isEmpty then none else some (String.ofList w, c)

end Cursor

def isAllowed (c : Char) : Bool :=
  let n := c.toNat
  n == 9 || n == 10 || n == 13 || (32 ≤ n && n ≤ 126) || n == 0x85 || (0xa0 ≤ n && n ≤ 0xd7ff) ||
    (0xe000 ≤ n && n ≤ 0xfffd) || 0x10000 ≤ n

end Zeitnot.Config.Yaml
