/-!
Blanks, and the words between them. Main functions: `strip` drops the blanks at both ends of a
text, `words` splits a text at its runs of blanks.
-/
set_option autoImplicit false

namespace Zeitnot.Text

/-- The characters that separate words: the white controls, the information separators and every
space of the standard, wide or narrow. -/
def isBlank (c : Char) : Bool :=
  let n := c.toNat
  (9 ≤ n && n ≤ 13) || (28 ≤ n && n ≤ 32) || n == 0x85 || n == 0xa0 || n == 0x1680 ||
    (0x2000 ≤ n && n ≤ 0x200a) || n == 0x2028 || n == 0x2029 || n == 0x202f || n == 0x205f ||
    n == 0x3000

example : isBlank ' ' = true ∧ isBlank '\t' = true ∧ isBlank 'a' = false := by decide

def trim (p : Char → Bool) (s : List Char) : List Char :=
  ((s.dropWhile p).reverse.dropWhile p).reverse

def strip (s : String) : String := String.ofList (trim isBlank s.toList)

def wordsFrom (word : List Char) : List Char → List (List Char)
  | [] => if word.isEmpty then [] else [word.reverse]
  | c :: r =>
    if isBlank c then
      if word.isEmpty then wordsFrom [] r else word.reverse :: wordsFrom [] r
    else wordsFrom (c :: word) r

theorem wordsFrom_blank {c : Char} (h : isBlank c = true) (r : List Char) :
    wordsFrom [] (c :: r) = wordsFrom [] r := by simp [wordsFrom, h]

def words (s : String) : List String := (wordsFrom [] s.toList).map String.ofList

def unwords (ws : List String) : String := " ".intercalate ws

end Zeitnot.Text
