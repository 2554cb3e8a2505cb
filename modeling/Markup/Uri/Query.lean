import Markup.Uri.Charset

set_option autoImplicit false

/-!
# Query strings

Keys and values of a query are written as form data: the bytes of the text in some character set,
every byte besides ASCII letters, digits and `_.-~` as a percent sign with two hexadecimal digits,
and then every space, which is `%20` by now, as a plus sign.
-/

namespace Markup.Query

/-- The bytes that stand for themselves. -/
def isKept (c : Char) : Bool :=
  c.isAlphanum || c == '_' || c == '.' || c == '-' || c == '~'

def hexDigit (n : Nat) : Char :=
  if n < 10 then Char.ofNat (0x30 + n) else Char.ofNat (0x37 + n)

def percentByte (byte : UInt8) : List Char :=
  let c := Char.ofNat byte.toNat
  if isKept c then [c]
  else ['%', hexDigit (byte.toNat / 16), hexDigit (byte.toNat % 16)]

def percentBytes (bytes : List UInt8) : List Char := bytes.flatMap percentByte

/-- Puts a plus sign in the place of every `%20` in a text. -/
def plusSpaces : List Char → List Char
  | '%' :: '2' :: '0' :: rest => '+' :: plusSpaces rest
  | c :: rest => c :: plusSpaces rest
  | [] => []

def encodeBytes (bytes : List UInt8) : List Char := plusSpaces (percentBytes bytes)

def component (charset : Charset) (text : String) : String :=
  String.ofList (encodeBytes (charset.encode text))

def pair (charset : Charset) (key value : String) : String :=
  component charset key ++ "=" ++ component charset value

def encode (charset : Charset) (pairs : List (String × String)) : String :=
  "&".intercalate (pairs.map fun (key, value) => pair charset key value)

end Markup.Query
