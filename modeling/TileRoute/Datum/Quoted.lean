/-!
# Quoted texts

A quoted text runs to the next quote that is not escaped. An escape stands for one character or, with
four hexadecimal digits, for one 16-bit unit; a unit of a pair that stands without the other one
makes the text unreadable, but not the scenario text malformed. A character below the space must be
escaped.
-/

namespace TileRoute.Datum.Quoted

/-- A piece of a quoted text: a character, or a 16-bit unit. -/
inductive Piece where
  | char (c : Char)
  | unit (n : Nat)
  deriving DecidableEq

def hexDigit? (c : Char) : Option Nat :=
  if '0' ≤ c ∧ c ≤ '9' then some (c.toNat - 48)
  else if 'a' ≤ c ∧ c ≤ 'f' then some (c.toNat - 87)
  else if 'A' ≤ c ∧ c ≤ 'F' then some (c.toNat - 55)
  else none

def unit? (a b c d : Char) : Option Nat := do
  let a ← hexDigit? a
  let b ← hexDigit? b
  let c ← hexDigit? c
  let d ← hexDigit? d
  some (4096 * a + 256 * b + 16 * c + d)

def escape? : Char → Option Char
  | '"' => some '"'
  | '\\' => some '\\'
  | '/' => some '/'
  | 'b' => some '\x08'
  | 'f' => some '\x0c'
  | 'n' => some '\n'
  | 'r' => some '\r'
  | 't' => some '\t'
  | _ => none

def scan? : List Char → Option (List Piece × List Char)
  | [] => none
  | '"' :: rest => some ([], rest)
  | '\\' :: 'u' :: a :: b :: c :: d :: rest => do
    let n ← unit? a b c d
    let (ps, rest) ← scan? rest
    some (.unit n :: ps, rest)
  | '\\' :: c :: rest => do
    let c ← escape? c
    let (ps, rest) ← scan? rest
    some (.char c :: ps, rest)
  | c :: rest =>
    if c.toNat < 32 then none
    else do
      let (ps, rest) ← scan? rest
      some (.char c :: ps, rest)

def isHigh (n : Nat) : Bool := decide (0xD800 ≤ n ∧ n ≤ 0xDBFF)

def isLow (n : Nat) : Bool := decide (0xDC00 ≤ n ∧ n ≤ 0xDFFF)

def pairChar (high low : Nat) : Char :=
  Char.ofNat (0x10000 + 1024 * (high - 0xD800) + (low - 0xDC00))

/-- The text of some pieces, if every unit of a pair has the other one. -/
def join? : List Piece → Option (List Char)
  | [] => some []
  | .char c :: rest => (join? rest).map (c :: ·)
  | .unit high :: .unit low :: rest =>
    if isHigh high && isLow low then (join? rest).map (pairChar high low :: ·)
    else if isHigh high || isLow high then none
    else (join? (.unit low :: rest)).map (Char.ofNat high :: ·)
  | .unit n :: rest =>
    if isHigh n || isLow n then none else (join? rest).map (Char.ofNat n :: ·)

/-- A text after its opening quote: what it says, if that can be said, and what follows it. -/
def read? (cs : List Char) : Option (Option String × List Char) :=
  (scan? cs).map fun (ps, rest) => ((join? ps).map String.ofList, rest)

example : read? "a\\n\\ud83d\\ude00\",".toList = some (some "a\n😀", [',']) := by decide

example : read? "\\ud83d\"".toList = some (none, []) ∧ read? "\\x\"".toList = none := by decide

end TileRoute.Datum.Quoted
