import Markup.Error
import Markup.Render.Tag
import Markup.Text.Blank

set_option autoImplicit false

/-!
# Render modes

A mode is a dialect of markup. It decides how elements without children close, how attributes that
are merely present are written, and how the apostrophe is escaped.
-/

namespace Markup

inductive Mode where
  /-- Closes elements without children by an end tag, void elements not at all. -/
  | html
  /-- Closes elements without children by an end tag, void elements by themselves. -/
  | xhtml
  /-- Closes every element without children by itself. -/
  | xml
  /-- Leaves every element without children open. -/
  | sgml
deriving DecidableEq, Repr

namespace Mode

def all : List Mode := [.html, .xhtml, .xml, .sgml]

def name : Mode → String
  | .html => "html"
  | .xhtml => "xhtml"
  | .xml => "xml"
  | .sgml => "sgml"

/-- The modes in which elements close by themselves and every attribute has a value. -/
def isXml : Mode → Bool
  | .xml | .xhtml => true
  | _ => false

def isHtml : Mode → Bool
  | .html | .xhtml => true
  | _ => false

def apostropheEntity : Mode → String
  | .sgml => "&#39;"
  | _ => "&apos;"

def isContainer (mode : Mode) (name : String) : Bool := mode.isHtml && !Tag.isVoidName name

/-- The mode of a name, in whatever case and between blanks. -/
def ofName (name : String) : Except Error Mode :=
  let wanted := (Text.trim name.toList).map Char.toLower
  match all.find? (·.name.toList == wanted) with
  | some mode => .ok mode
  | none => .error (.unknownMode name)

end Mode

structure RenderOptions where
  mode : Mode := .xhtml
  /-- Whether text is escaped. Attribute values always are. -/
  escapeStrings : Bool := true
deriving DecidableEq, Repr

end Markup
