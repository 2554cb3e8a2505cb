import Markup.Tree.Node

set_option autoImplicit false

/-!
# Merging attributes

A function that builds an element can take extra attributes for it. They go into the element's own
map, where they win, or into a new map after its tag.
-/

namespace Markup.Node

def addAttrs (more : Attrs) : Node → Node
  | .list (tag :: .attrs own :: children) => .list (tag :: .attrs (own.update more) :: children)
  | .list (tag :: children) => .list (tag :: .attrs more :: children)
  | node => node

/-- Adds attributes that may be missing. An empty map leaves every node as it is. -/
def mergeAttrs (node : Node) : Option Attrs → Node
  | some more => if more.isEmpty then node else node.addAttrs more
  | none => node

def splitAttrs : List Node → Option Attrs × List Node
  | .attrs map :: rest => (some map, rest)
  | nodes => (none, nodes)

def withAttrs {α : Type} (build : α → Node) (attrs? : Option Attrs) (argument : α) : Node :=
  (build argument).mergeAttrs attrs?

def withLeadingAttrs (build : List Node → Node) (arguments : List Node) : Node :=
  let (attrs?, rest) := splitAttrs arguments
  (build rest).mergeAttrs attrs?

end Markup.Node
