import Routecraft.Text.Hex
import Routecraft.Text.Printable

/-!
# Quoted text

How a text stands in a listing: between double quotes, with the quote, the backslash and the common
control characters escaped by a letter, every other character without a picture of its own by its
code point, and all else as it is. A single quote is not escaped.
-/

namespace Routecraft.Text

/-- How a character stands in a quoted text. -/
def quoteChar (c : Char) : List Char :=
  if c = '\x00' then ['\\', '0']
  else if c = '\t' then ['\\', 't']
  else if c = '\r' then ['\\', 'r']
  else if c = '\n' then ['\\', 'n']
  else if c = '"' then ['\\', '"']
  else if c = '\\' then ['\\', '\\']
  else if isPrintable c then [c]
  else ['\\', 'u', '\x7b'] ++ hexNat c.toNat ++ ['\x7d']

def quoted (s : String) : String :=
  String.ofList ('"' :: s.toList.flatMap quoteChar ++ ['"'])

end Routecraft.Text
