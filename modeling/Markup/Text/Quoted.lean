import Markup.Text.Extending

set_option autoImplicit false

/-!
# Quoted text

Text between double quotes, as it stands in messages: quotes, backslashes and the common controls
are escaped by a letter, everything that would not show as itself by its code point.
-/

namespace Markup.Text

/-- A character named by its code point, in lower-case hexadecimal digits between braces. -/
def codePointEscape (c : Char) : List Char :=
  '\\' :: 'u' :: '\x7b' :: Nat.toDigits 16 c.toNat ++ ['\x7d']

def quotedChar (c : Char) : List Char :=
  if c = '"' then ['\\', '"']
  else if c = '\\' then ['\\', '\\']
  else if c = '\x00' then ['\\', '0']
  else if c = '\t' then ['\\', 't']
  else if c = '\n' then ['\\', 'n']
  else if c = '\r' then ['\\', 'r']
  else if isExtending c || isUnprintable c then codePointEscape c
  else [c]

def quoted (text : String) : String :=
  String.ofList ('"' :: text.toList.flatMap quotedChar ++ ['"'])

end Markup.Text
