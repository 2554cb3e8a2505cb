import Markup.Render.Writer
import Markup.Site.Scope
import Markup.Tree.Merge

set_option autoImplicit false

/-!
# Pages

Whole documents: the declarations in front, the root element, and the scripts and style sheets that
a page loads.
-/

namespace Markup

inductive Doctype where
  | html4
  | xhtmlStrict
  | xhtmlTransitional
  | html5
deriving DecidableEq, Repr

def Doctype.declaration : Doctype → String
  | .html4 =>
    "<!DOCTYPE html PUBLIC \"-//W3C//DTD HTML 4.01//EN\" " ++
      "\"http://www.w3.org/TR/html4/strict.dtd\">\n"
  | .xhtmlStrict =>
    "<!DOCTYPE html PUBLIC \"-//W3C//DTD XHTML 1.0 Strict//EN\" " ++
      "\"http://www.w3.org/TR/xhtml1/DTD/xhtml1-strict.dtd\">\n"
  | .xhtmlTransitional =>
    "<!DOCTYPE html PUBLIC \"-//W3C//DTD XHTML 1.0 Transitional//EN\" " ++
      "\"http://www.w3.org/TR/xhtml1/DTD/xhtml1-transitional.dtd\">\n"
  | .html5 => "<!DOCTYPE html>\n"

namespace Page

def doctype (kind : Doctype) : Node := .raw kind.declaration

def xmlDeclaration (encoding : String) : Node :=
  .raw ("<?xml version=\"1.0\" encoding=\"" ++ encoding ++ "\"?>\n")

def xhtmlRoot (attrs? : Option Attrs) (language? : Option String) (content : Node) : Node :=
  let own : Attrs := .ofPairs [("xmlns", .str "http://www.w3.org/1999/xhtml"),
    ("xml:lang", .ofText? language?), ("lang", .ofText? language?)]
  (Node.elementWith "html" own [content]).mergeAttrs attrs?

def html4 (attrs? : Option Attrs) (content : Node) : Except Error Node :=
  prerender { mode := .sgml } [doctype .html4, (Node.element "html" [content]).mergeAttrs attrs?]

def xhtmlDocument (scope : Scope) (mode : Mode) (kind : Doctype) (attrs? : Option Attrs)
    (language? : Option String) (content : Node) : Except Error Node :=
  prerender { mode := mode } [xmlDeclaration scope.context.encoding, doctype kind,
    xhtmlRoot attrs? language? content]

def xhtml (scope : Scope) (attrs? : Option Attrs) (language? : Option String) (content : Node) :
    Except Error Node :=
  xhtmlDocument scope .xhtml .xhtmlStrict attrs? language? content

/-- An HTML5 document, in XML syntax if `xml` is set. -/
def html5 (scope : Scope) (attrs? : Option Attrs) (language? : Option String) (xml : Bool)
    (content : Node) : Except Error Node :=
  if xml then xhtmlDocument scope .xml .html5 attrs? language? content
  else
    let map := (attrs?.getD .empty).set "lang" (.ofText? language?)
    prerender { mode := .html } [doctype .html5, .elementWith "html" map [content]]

def scripts (scope : Scope) (sources : List Uri) : Node :=
  .seq (sources.map fun source => .elementWith "script"
    (.ofPairs [("type", .str "text/javascript"), ("src", .uri (scope.context.rebase source))]) [])

def styles (scope : Scope) (sources : List Uri) : Node :=
  .seq (sources.map fun source => .elementWith "link"
    (.ofPairs [("type", .str "text/css"), ("href", .uri (scope.context.rebase source)),
      ("rel", .str "stylesheet")]) [])

end Page

end Markup
