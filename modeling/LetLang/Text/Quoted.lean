import LetLang.Text.Padding
import LetLang.Text.Printable

/-!
# Quoted text

Quoted text, as names and literals are shown in a printed tree. The quote is `'` unless the text
holds a `'` and no `"`; the backslash, the chosen quote, line feed, carriage return and tab are
escaped by a backslash, and every other character that is not printable by its code point in
hexadecimal (`Text.quoted`).
-/

set_option autoImplicit false

namespace LetLang.Text

/-- The quote that a text is shown in. -/
def quoteFor (text : List Char) : Char :=
  if text.contains '\'' && !text.contains '"' then '"' else '\''

/-- The escape of a character by its code point: two, four or eight hexadecimal digits, whichever
is the least number that suffices. -/
def codeEscape (c : Char) : List Char :=
  if c.toNat < 0x100 then '\\' :: 'x' :: (hexField 2 c.toNat).toList
  else if c.toNat < 0x10000 then '\\' :: 'u' :: (hexField 4 c.toNat).toList
  else '\\' :: 'U' :: (hexField 8 c.toNat).toList

/-- How one character is written inside quotes of the given kind. -/
def quotedChar (quote c : Char) : List Char :=
  if c = '\\' || c = quote then ['\\', c]
  else if c = '\n' then ['\\', 'n']
  else if c = '\r' then ['\\', 'r']
  else if c = '\t' then ['\\', 't']
  else if isPrintable c then [c]
  else codeEscape c

/-- A text between quotes, with the characters that need it escaped. -/
def quoted (text : String) : String :=
  let quote := quoteFor text.toList
  String.ofList (quote :: text.toList.flatMap (quotedChar quote) ++ [quote])

end LetLang.Text
