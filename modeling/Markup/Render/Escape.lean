import Markup.Render.Mode

set_option autoImplicit false

/-!
# Escaping

The characters that have a meaning in markup are written as entities, in two passes: first those
that have no place between double quotes, then the apostrophe, whose entity depends on the mode.
-/

namespace Markup

def quotableChar (c : Char) : List Char :=
  if c = '&' then "&amp;".toList
  else if c = '<' then "&lt;".toList
  else if c = '>' then "&gt;".toList
  else if c = '"' then "&quot;".toList
  else [c]

def quotable (text : List Char) : List Char := text.flatMap quotableChar

def Mode.replaceApostrophes (mode : Mode) (text : List Char) : List Char :=
  text.flatMap fun c => if c = '\x27' then mode.apostropheEntity.toList else [c]

/-- Text as it stands between tags and between the quotes of an attribute value. -/
def Mode.escape (mode : Mode) (text : String) : String :=
  String.ofList (mode.replaceApostrophes (quotable text.toList))

def RenderOptions.escape (options : RenderOptions) (text : String) : String :=
  if options.escapeStrings then options.mode.escape text else text

end Markup
