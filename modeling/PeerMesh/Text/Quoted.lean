import PeerMesh.Text.Glyph
import PeerMesh.Text.Hex

/-!
# Quoted text

A text inside double quotes, as error messages show it: the double quote and the backslash are
escaped by a backslash; tab, line feed, carriage return and NUL have letters of their own; any other
character without a glyph is shown by its number; all else stands for itself.

* `escape c` : how one character is written between the quotes;
* `quoted s` : the whole text, `quotedList` a bracketed list of them.
-/

namespace PeerMesh.Text

def escape (c : Char) : String :=
  if c = '"' then "\\\""
  else if c = '\\' then "\\\\"
  else if c = '\n' then "\\n"
  else if c = '\r' then "\\r"
  else if c = '\t' then "\\t"
  else if c = '\x00' then "\\0"
  else if hasGlyph c then c.toString
  else "\\u\x7b" ++ Hex.digits c.toNat ++ "\x7d"

def quoted (s : String) : String := "\"" ++ String.join (s.toList.map escape) ++ "\""

def quotedList (ss : List String) : String := "[" ++ ", ".intercalate (ss.map quoted) ++ "]"

end PeerMesh.Text
