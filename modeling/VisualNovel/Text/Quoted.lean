import VisualNovel.Text.Unprintable

/-!
This module contains the quoted form of a text, as error messages show it.
-/

namespace VisualNovel
namespace Text

/--
The code point in lower-case hexadecimal digits.
-/
def hex (c : Char) : String :=
  String.ofList (Nat.toDigits 16 c.toNat)

def quoteChar (c : Char) : String :=
  if c = '"' then "\\\""
  else if c = '\\' then "\\\\"
  else if c = '\n' then "\\n"
  else if c = '\r' then "\\r"
  else if c = '\t' then "\\t"
  else if c = '\x00' then "\\0"
  else if isUnprintable c then "\\u\x7b" ++ hex c ++ "\x7d"
  else c.toString

/--
The text between double quotes. Quotes, backslashes and characters without a glyph are escaped.
-/
def quote (s : String) : String :=
  "\"" ++ String.join (s.toList.map quoteChar) ++ "\""

end Text
end VisualNovel
