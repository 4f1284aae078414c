import TileRoute.Datum.Basic
import TileRoute.Datum.Number
import TileRoute.Datum.Quoted

/-!
# Reading data

`Datum.ofText` reads the datum at the front of a text; what follows it is not looked at. Every
reader gives what it has read and, if the text is well formed so far, what follows.
-/

namespace TileRoute.Datum

def isSpace (c : Char) : Bool := c == ' ' || c == '\n' || c == '\t' || c == '\r'

def skipSpace (cs : List Char) : List Char := cs.dropWhile isSpace

def dropWord? : List Char → List Char → Option (List Char)
  | [], cs => some cs
  | w :: ws, c :: cs => if w = c then dropWord? ws cs else none
  | _ :: _, [] => none

def readWord (word : String) (d : Datum) (cs : List Char) : Datum × Option (List Char) :=
  match dropWord? word.toList cs with
  | some rest => (d, some rest)
  | none => (.fault, none)

def readText (cs : List Char) : Datum × Option (List Char) :=
  match Quoted.read? cs with
  | some (some s, rest) => (.text s, some rest)
  | some (none, rest) => (.unsayable, some rest)
  | none => (.fault, none)

def ofNumeral : Numeral → Datum
  | .integer i => .integer i
  | .real x => .real x
  | .beyond => .beyond

def readNumber (cs : List Char) : Datum × Option (List Char) :=
  match Lexeme.read? cs with
  | some (l, rest) => (ofNumeral l.value, some rest)
  | none => (.fault, none)

def readKey (cs : List Char) : Key × Option (List Char) :=
  match Quoted.read? cs with
  | some (name?, rest) => (⟨name?, cs⟩, some rest)
  | none => (⟨none, cs⟩, none)

mutual

/-- The datum at the front of a text. Every datum takes at least one character, so a count of twice
the characters is never used up. -/
def read : Nat → List Char → Datum × Option (List Char)
  | 0, _ => (.fault, none)
  | n + 1, cs =>
    match skipSpace cs with
    | 'n' :: rest => readWord "ull" .null rest
    | 't' :: rest => readWord "rue" (.truth true) rest
    | 'f' :: rest => readWord "alse" (.truth false) rest
    | '"' :: rest => readText rest
    | '[' :: rest =>
      let (items, rest?) := readItems n true rest
      (.list items rest?.isSome, rest?)
    | '{' :: rest =>
      let (entries, rest?) := readEntries n true rest
      (.object entries rest?.isSome, rest?)
    | rest => readNumber rest

def readItems : Nat → Bool → List Char → List Datum × Option (List Char)
  | 0, _, _ => ([], none)
  | n + 1, first, cs =>
    match first, skipSpace cs with
    | true, ']' :: rest => ([], some rest)
    | _, rest =>
      match read n rest with
      | (d, none) => ([d], none)
      | (d, some rest) =>
        match skipSpace rest with
        | ',' :: rest =>
          let (items, rest?) := readItems n false rest
          (d :: items, rest?)
        | ']' :: rest => ([d], some rest)
        | _ => ([d], none)

def readEntries : Nat → Bool → List Char → List (Key × Datum) × Option (List Char)
  | 0, _, _ => ([], none)
  | n + 1, first, cs =>
    match first, skipSpace cs with
    | true, '}' :: rest => ([], some rest)
    | _, '"' :: rest =>
      match readKey rest with
      | (k, none) => ([(k, .fault)], none)
      | (k, some rest) =>
        match skipSpace rest with
        | ':' :: rest =>
          match read n rest with
          | (d, none) => ([(k, d)], none)
          | (d, some rest) =>
            match skipSpace rest with
            | ',' :: rest =>
              let (entries, rest?) := readEntries n false rest
              ((k, d) :: entries, rest?)
            | '}' :: rest => ([(k, d)], some rest)
            | _ => ([(k, d)], none)
        | _ => ([(k, .fault)], none)
    | _, _ => ([], none)

end

def ofText (s : String) : Datum := (read (2 * s.length + 2) s.toList).1

end TileRoute.Datum
