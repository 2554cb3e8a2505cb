import Markup.Text.Blank

set_option autoImplicit false

/-!
# Tags

A tag is written `name#id.class.class`, where the identifier and the classes may be missing.
-/

namespace Markup

/-- A tag with its identifier and its classes, which are separated by spaces. -/
structure Tag where
  name : String
  id? : Option String
  classes : String
deriving DecidableEq, Repr

namespace Tag

def voidNames : List String :=
  ["area", "base", "br", "col", "command", "embed", "hr", "img", "input", "keygen", "link", "meta",
    "param", "source", "track", "wbr"]

def isVoidName (name : String) : Bool := voidNames.contains name

def isNameChar (c : Char) : Bool := !(Text.isBlank c || c == '.' || c == '#')

def isClassChar (c : Char) : Bool := !(Text.isBlank c || c == '#')

/-- The identifier after a hash in front of a text, and the text after it. A hash that no
    identifier follows stays. -/
def splitId : List Char → Option (List Char) × List Char
  | '#' :: after =>
    let id := after.takeWhile isNameChar
    if id.isEmpty then (none, '#' :: after) else (some id, after.dropWhile isNameChar)
  | text => (none, text)

def leadingClasses : List Char → List Char
  | '.' :: after => (after.takeWhile isClassChar).map fun c => if c = '.' then ' ' else c
  | _ => []

/-- Reads a tag from the front of a text and ignores what follows it. There is none without a
    name. -/
def parse? (text : String) : Option Tag :=
  let name := text.toList.takeWhile isNameChar
  let (id?, rest) := splitId (text.toList.dropWhile isNameChar)
  if name.isEmpty then none
  else some ⟨String.ofList name, id?.map String.ofList, String.ofList (leadingClasses rest)⟩

end Tag

end Markup
