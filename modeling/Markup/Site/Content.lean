import Markup.Site.Scope
import Markup.Tree.Merge

set_option autoImplicit false

/-!
# Content

Links, lists, images and inline scripts. Extra attributes of the caller go into the outermost
element.
-/

namespace Markup.Content

/-- Inline JavaScript, kept from being read as markup. -/
def script (source : String) : Node :=
  .elementWith "script" (.ofPairs [("type", .str "text/javascript")])
    [.raw ("//<![CDATA[\n" ++ source ++ "\n//]]>")]

def link (scope : Scope) (attrs? : Option Attrs) (target : Uri) (content : Node) : Node :=
  let own : Attrs := .ofPairs [("href", .uri (scope.context.rebase target))]
  (Node.elementWith "a" own [content]).mergeAttrs attrs?

/-- A link to a mail address, around the address if there is no content. -/
def mailLink (attrs? : Option Attrs) (address : String) (content : Node) : Node :=
  let shown := if content.isNull then .text address else content
  let own : Attrs := .ofPairs [("href", .str ("mailto:" ++ address))]
  (Node.elementWith "a" own [shown]).mergeAttrs attrs?

def listOf (tag : String) (attrs? : Option Attrs) (items : List Node) : Node :=
  (Node.element tag [.seq (items.map fun item => .element "li" [item])]).mergeAttrs attrs?

def unorderedList (attrs? : Option Attrs) (items : List Node) : Node := listOf "ul" attrs? items
def orderedList (attrs? : Option Attrs) (items : List Node) : Node := listOf "ol" attrs? items

def image (scope : Scope) (attrs? : Option Attrs) (source : Uri) (alt? : Option String) : Node :=
  let own : Attrs := .ofPairs [("src", .uri (scope.context.rebase source)),
    ("alt", .ofText? alt?)]
  (Node.elementWith "img" own []).mergeAttrs attrs?

end Markup.Content
