import PeerMesh.Text.Hex

/-!
# JSON documents

* `Json` : the values that reports are made of;
* `Json.escape`, `Json.quoted` : a text as a JSON string. The double quote, the backslash and the
  control characters below the space are escaped, all else stands for itself;
* `Json.pretty` : a value over several lines, each level two spaces further in.
-/

namespace PeerMesh.Text

inductive Json where
  | int (value : Int)
  | text (value : String)
  | list (items : List Json)
  /-- Fields in the order in which they are written. -/
  | object (fields : List (String × Json))
  deriving Inhabited

namespace Json

/-- How one character is written inside a JSON string. -/
def escape (c : Char) : String :=
  if c = '"' then "\\\""
  else if c = '\\' then "\\\\"
  else if c = '\n' then "\\n"
  else if c = '\r' then "\\r"
  else if c = '\t' then "\\t"
  else if c = '\x08' then "\\b"
  else if c = '\x0c' then "\\f"
  else if c.toNat < 0x20 then
    "\\u00" ++ String.ofList [Hex.digit (c.toNat / 16), Hex.digit (c.toNat % 16)]
  else c.toString

def quoted (s : String) : String := "\"" ++ String.join (s.toList.map escape) ++ "\""

/-- The start of a line that is `depth` levels in. -/
def margin (depth : Nat) : String := "".pushn ' ' (2 * depth)

/-- Items between two brackets, each on a line of its own; nothing but the brackets when there are
none. -/
def block (opening closing : String) (depth : Nat) (items : List String) : String :=
  if items.isEmpty then opening ++ closing
  else
    opening ++ "\n" ++ ",\n".intercalate (items.map (margin (depth + 1) ++ ·)) ++ "\n" ++
      margin depth ++ closing

mutual

/-- A value that starts `depth` levels in. -/
def prettyAt (depth : Nat) : Json → String
  | int value => toString value
  | text value => quoted value
  | list items => block "[" "]" depth (prettyItems (depth + 1) items)
  | object fields => block "\x7b" "\x7d" depth (prettyFields (depth + 1) fields)

def prettyItems (depth : Nat) : List Json → List String
  | [] => []
  | item :: items => prettyAt depth item :: prettyItems depth items

def prettyFields (depth : Nat) : List (String × Json) → List String
  | [] => []
  | (name, value) :: fields =>
    (quoted name ++ ": " ++ prettyAt depth value) :: prettyFields depth fields

end

def pretty (value : Json) : String := prettyAt 0 value

end Json

end PeerMesh.Text
