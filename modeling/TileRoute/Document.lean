import TileRoute.Number.Style

/-!
# Documents

A `Document` is what is printed: values, lists and records with their fields in order. It is printed
with every item on a line of its own, indented by two spaces for each list or record around it; an
empty list and an empty record stay on one line. In a text only quotes, backslashes and the
characters below the space are escaped.
-/

namespace TileRoute

inductive Document where
  | null
  | truth (b : Bool)
  | integer (i : Int)
  | number (x : Float)
  | text (s : String)
  | list (items : List Document)
  | record (fields : List (String × Document))

namespace Document

def hexDigit (n : Nat) : Char := Nat.digitChar n

def escaped (c : Char) : List Char :=
  match c with
  | '"' => ['\\', '"']
  | '\\' => ['\\', '\\']
  | '\x08' => ['\\', 'b']
  | '\x0c' => ['\\', 'f']
  | '\n' => ['\\', 'n']
  | '\r' => ['\\', 'r']
  | '\t' => ['\\', 't']
  | c =>
    if c.toNat < 32 then ['\\', 'u', '0', '0', hexDigit (c.toNat / 16), hexDigit (c.toNat % 16)]
    else [c]

def quoted (s : String) : String :=
  "\"" ++ String.ofList (s.toList.flatMap escaped) ++ "\""

example : quoted "a\"\x01" = "\"a\\\"\\u0001\"" := by decide

def spaces (n : Nat) : String := String.ofList (List.replicate n ' ')

def block (opening closing : String) (indent : Nat) : List String → String
  | [] => opening ++ closing
  | lines =>
    opening ++ "\n" ++ ",\n".intercalate (lines.map fun line => spaces (indent + 2) ++ line)
      ++ "\n" ++ spaces indent ++ closing

mutual

def textAt (indent : Nat) : Document → String
  | .null => "null"
  | .truth b => if b then "true" else "false"
  | .integer i => toString i
  | .number x => snapshotStyle.text x
  | .text s => quoted s
  | .list items => block "[" "]" indent (itemTexts (indent + 2) items)
  | .record fields => block "\x7b" "\x7d" indent (fieldTexts (indent + 2) fields)

def itemTexts (indent : Nat) : List Document → List String
  | [] => []
  | d :: rest => d.textAt indent :: itemTexts indent rest

def fieldTexts (indent : Nat) : List (String × Document) → List String
  | [] => []
  | (name, d) :: rest => (quoted name ++ ": " ++ d.textAt indent) :: fieldTexts indent rest

end

def print (d : Document) : String := d.textAt 0

def orNull {β : Type} (f : β → Document) : Option β → Document
  | none => .null
  | some b => f b

end Document

end TileRoute
