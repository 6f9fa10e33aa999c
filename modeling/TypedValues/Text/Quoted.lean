import TypedValues.Text.GraphemeExtend
import TypedValues.Text.Unprintable

/-!
# Quoted text

A string is shown between double quotes. Quotes, backslashes and the common control characters have
escapes of their own; a character that would not show as itself is written by its code point.
-/

namespace TypedValues.Text

/-- The code point in lowercase hexadecimal, as in `\u{301}`. -/
def codePointEscape (c : Char) : List Char :=
  ['\\', 'u', '\x7b'] ++ Nat.toDigits 16 c.toNat ++ ['\x7d']

def quotedChar (c : Char) : List Char :=
  match c with
  | '"' => ['\\', '"']
  | '\\' => ['\\', '\\']
  | '\n' => ['\\', 'n']
  | '\r' => ['\\', 'r']
  | '\t' => ['\\', 't']
  | '\x00' => ['\\', '0']
  | c => if graphemeExtend.contains c || unprintable.contains c then codePointEscape c else [c]

/-- The text between double quotes, every character in its quoted form. -/
def quoted (s : String) : String :=
  String.ofList ('"' :: (s.toList.flatMap quotedChar ++ ['"']))

end TypedValues.Text
