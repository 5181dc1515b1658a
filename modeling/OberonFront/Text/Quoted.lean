import OberonFront.Text.Unprintable
import OberonFront.Text.GraphemeExtend

/-!
# Quoted text

A text between double quotes on one line.  Quote, backslash, tab, the two line
end characters and NUL have escapes of two characters; any other character that
cannot be shown by itself is written as its code point in hexadecimal.  Which
characters can be shown is a parameter of the rule.
-/

namespace OberonFront

/-- The digits of a code point in base sixteen, lower case, without leading zeros. -/
def hexDigits (code : Nat) : List Char :=
  Nat.toDigits 16 code

/-- How one character is written inside quotes, when `shown` holds of those that may stand for
themselves. -/
def quotedChar (shown : Char → Bool) (c : Char) : List Char :=
  if c = '"' ∨ c = '\\' then ['\\', c]
  else if c = '\t' then ['\\', 't']
  else if c = '\n' then ['\\', 'n']
  else if c = '\r' then ['\\', 'r']
  else if c.toNat = 0 then ['\\', '0']
  else if shown c then [c]
  else ['\\', 'u', '\x7b'] ++ hexDigits c.toNat ++ ['\x7d']

def quoted (shown : Char → Bool) (text : List Char) : List Char :=
  '"' :: text.flatMap (quotedChar shown) ++ ['"']

/-- A character is shown as it is if it has a glyph and does not combine with its neighbour. -/
def isShown (c : Char) : Bool :=
  !isUnprintable c && !isGraphemeExtender c

/-- The text as it is written in dumps and messages. -/
def quote (text : String) : String :=
  String.ofList (quoted isShown text.toList)

end OberonFront
