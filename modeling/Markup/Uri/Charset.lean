import Markup.Error

set_option autoImplicit false

/-!
# Character sets

What a query needs of a character set is the bytes that a text has in it, and what a context needs
of labels is the character sets that they name. Both come from outside: a theorem holds for all of
them, or says what it takes.
-/

namespace Markup

structure Charset where
  name : String
  /-- The bytes of a text. What the set lacks is written in some other way, so there are always
      some. -/
  encode : String → List UInt8

namespace Charset

def IsUtf8 (charset : Charset) : Prop :=
  ∀ text, charset.encode text = text.toUTF8.data.toList

def utf8 : Charset := ⟨"UTF-8", fun text => text.toUTF8.data.toList⟩

theorem isUtf8_utf8 : utf8.IsUtf8 := fun _ => rfl

end Charset

/-- The character sets that labels name. -/
structure Charsets where
  ofLabel? : String → Option Charset

namespace Charsets

def lookup (charsets : Charsets) (label : String) : Except Error Charset :=
  match charsets.ofLabel? label with
  | some charset => .ok charset
  | none => .error (.unknownEncoding label)

end Charsets

end Markup
