/-!
# Blank characters and words

The blanks are the characters with the Unicode property White_Space (25 characters, stable since
version 6.3). A line is read as its words, the maximal runs without a blank. Mnemonics are compared
up to the case of the letters A to Z only.
-/

namespace TileRoute.Text

/-- Closed ranges of the code points with the White_Space property, ascending. -/
def blankRanges : List (Nat × Nat) :=
  [(0x09, 0x0D), (0x20, 0x20), (0x85, 0x85), (0xA0, 0xA0), (0x1680, 0x1680), (0x2000, 0x200A),
    (0x2028, 0x2029), (0x202F, 0x202F), (0x205F, 0x205F), (0x3000, 0x3000)]

def isBlank (c : Char) : Bool := blankRanges.any fun r => r.1 ≤ c.toNat && c.toNat ≤ r.2

example : (blankRanges.map fun r => r.2 + 1 - r.1).sum = 25 := by decide

example : isBlank 'a' = false ∧ isBlank '\u200b' = false := by decide

def allBlank (s : String) : Bool := s.toList.all isBlank

def hasBlank (s : String) : Bool := s.toList.any isBlank

/-- Splits off the words of a line, given the letters of the current word, last one first. -/
def wordsFrom : List Char → List Char → List (List Char)
  | word, [] => if word.isEmpty then [] else [word.reverse]
  | word, c :: rest =>
    if isBlank c then
      if word.isEmpty then wordsFrom [] rest else word.reverse :: wordsFrom [] rest
    else wordsFrom (c :: word) rest

def words (s : String) : List String := (wordsFrom [] s.toList).map String.ofList

theorem wordsFrom_blank {c : Char} (h : isBlank c = true) (rest : List Char) :
    wordsFrom [] (c :: rest) = wordsFrom [] rest := by
  simp only [wordsFrom, h, if_true, List.isEmpty_nil]

theorem wordsFrom_letter {c : Char} (h : isBlank c = false) (word rest : List Char) :
    wordsFrom word (c :: rest) = wordsFrom (c :: word) rest := by
  simp only [wordsFrom, h, Bool.false_eq_true, if_false]

example : words " MOVE_D\t 3 " = ["MOVE_D", "3"] := by decide

def trim (s : String) : String :=
  String.ofList (((s.toList.dropWhile isBlank).reverse.dropWhile isBlank).reverse)

/-- The capital form of a letter from a to z; any other character is its own. -/
def capital (c : Char) : Char :=
  if 'a' ≤ c ∧ c ≤ 'z' then Char.ofNat (c.toNat - 32) else c

def capitals (s : String) : String := String.ofList (s.toList.map capital)

example : capitals "move_é" = "MOVE_é" := by decide

end TileRoute.Text
