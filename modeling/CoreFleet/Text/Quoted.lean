import CoreFleet.Text.Hexadecimal
import CoreFleet.Text.Hidden

/-!
# Quoted text

`quote` writes a text between double quotes. Inside, the quote and the backslash follow
a backslash, the line feed, the tab, the carriage return and the null character have
letters of their own, and every other hidden character is written as `\u` with its code
point in braces, in hexadecimal with no leading zero.
-/

namespace CoreFleet.Text

/-- The opening brace. -/
def openBrace : Char := '\x7b'

/-- The closing brace. -/
def closeBrace : Char := '\x7d'

/-- A character written by its code point. -/
def codePoint (c : Char) : List Char :=
  ['\\', 'u', openBrace] ++ Hexadecimal.render c.toNat ++ [closeBrace]

/-- A character as it is written between quotes. -/
def quoteChar (c : Char) : List Char :=
  if c = '"' then ['\\', '"']
  else if c = '\\' then ['\\', '\\']
  else if c = '\n' then ['\\', 'n']
  else if c = '\t' then ['\\', 't']
  else if c = '\r' then ['\\', 'r']
  else if c.toNat = 0 then ['\\', '0']
  else if isHidden c then codePoint c
  else [c]

/-- The text between quotes. -/
def quoteChars (cs : List Char) : List Char := '"' :: cs.flatMap quoteChar ++ ['"']

/-- The text between quotes, as a string. -/
def quote (s : String) : String := String.ofList (quoteChars s.toList)

end CoreFleet.Text
