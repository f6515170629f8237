import Chunker.Text.Printable

/-!
# Quoted text

A text between double quotes in which every character that would not show as itself is
written as an escape. Error messages on standard error are written in this form.

## Main definitions

* `Text.escaped` : the characters that stand for one character inside quotes.
* `Text.quoted` : a text between quotes.
-/

namespace Chunker.Text

/-- The escape by code point: its lower-case hexadecimal digits, without leading zeros,
between braces. -/
def codePointEscape (c : Char) : List Char :=
  ['\\', 'u', '\x7b'] ++ Nat.toDigits 16 c.toNat ++ ['\x7d']

/-- The characters that stand for one character inside quotes. A single quote needs no
escape. -/
def escaped (c : Char) : List Char :=
  if c = '\x00' then ['\\', '0']
  else if c = '\t' then ['\\', 't']
  else if c = '\r' then ['\\', 'r']
  else if c = '\n' then ['\\', 'n']
  else if c = '\\' then ['\\', '\\']
  else if c = '"' then ['\\', '"']
  else if isPrintable c then [c]
  else codePointEscape c

/-- A text between double quotes, with its escapes. -/
def quoted (s : String) : String :=
  String.ofList ('"' :: s.toList.flatMap escaped ++ ['"'])

end Chunker.Text
