/-
This file holds quoted text, the form in which messages show a text that may
contain anything. The quotes are single unless the text has single quotes and
no double ones. A backslash stands before a quote that would end the text,
before another backslash, and before the code of a character that is not
shown as it is.
-/

import Reckon.Text.Printable

namespace Reckon.Text

/-- A number in base sixteen, filled up with zeros to a width. -/
def hexadecimal (width number : Nat) : List Char :=
  let digits := Nat.toDigits 16 number
  List.replicate (width - digits.length) '0' ++ digits

/-- The code of a character that is not shown as it is, in the shortest of three widths. -/
def characterCode (code : Nat) : List Char :=
  if code < 0x100 then '\\' :: 'x' :: hexadecimal 2 code
  else if code < 0x10000 then '\\' :: 'u' :: hexadecimal 4 code
  else '\\' :: 'U' :: hexadecimal 8 code

/-- A character as it stands between the given quotes. -/
def quotedChar (quote char : Char) : List Char :=
  if char == quote || char == '\\' then ['\\', char]
  else if char == '\n' then ['\\', 'n']
  else if char == '\r' then ['\\', 'r']
  else if char == '\t' then ['\\', 't']
  else if isPrintable char then [char]
  else characterCode char.toNat

/-- The quote that goes around a text. -/
def quoteFor (text : List Char) : Char :=
  if text.contains '\x27' && !text.contains '\x22' then '\x22' else '\x27'

/-- A text between quotes. -/
def quoted (text : String) : String :=
  let quote := quoteFor text.toList
  String.ofList (quote :: (text.toList.flatMap (quotedChar quote) ++ [quote]))

end Reckon.Text
