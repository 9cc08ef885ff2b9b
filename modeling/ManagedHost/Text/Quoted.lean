/-
# Quoted text

How a name is shown between quotation marks in a description: the quotation mark and the
backslash are escaped, the usual blanks have short escapes, and a character that would be
invisible or would merge with its neighbour is written by its code point.
-/
import ManagedHost.Text.Hex
import ManagedHost.Text.Printable

namespace ManagedHost.Text

/-- How one character is written between quotation marks. -/
def quoteChar (c : Char) : List Char :=
  if c = '\x00' then ['\\', '0']
  else if c = '\t' then ['\\', 't']
  else if c = '\r' then ['\\', 'r']
  else if c = '\n' then ['\\', 'n']
  else if c = '\\' then ['\\', '\\']
  else if c = '"' then ['\\', '"']
  else if isPrintable c && !isExtending c then [c]
  else ("\\u\x7b" ++ hex 1 c.toNat ++ "\x7d").toList

/-- A text between quotation marks. -/
def quote (s : String) : String :=
  String.ofList ('"' :: s.toList.flatMap quoteChar ++ ['"'])

end ManagedHost.Text
