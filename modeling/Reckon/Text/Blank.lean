/-
This file says which characters are blank in free text. The blanks of every
script count here; the language of expressions has a much smaller set of its
own.
-/

namespace Reckon.Text

/-- The blank characters of every script. -/
def blanks : List Nat := [
  0x0009, 0x000a, 0x000b, 0x000c, 0x000d, 0x001c, 0x001d, 0x001e, 0x001f, 0x0020, 0x0085,
  0x00a0, 0x1680, 0x2000, 0x2001, 0x2002, 0x2003, 0x2004, 0x2005, 0x2006, 0x2007, 0x2008,
  0x2009, 0x200a, 0x2028, 0x2029, 0x202f, 0x205f, 0x3000]

def isBlank (char : Char) : Bool :=
  blanks.contains char.toNat

/-- A text without the given characters at its end. -/
def trimEnd (isMargin : Char → Bool) (text : List Char) : List Char :=
  (text.reverse.dropWhile isMargin).reverse

/-- A text without the given characters at its two ends. -/
def trim (isMargin : Char → Bool) (text : List Char) : List Char :=
  trimEnd isMargin (text.dropWhile isMargin)

end Reckon.Text
