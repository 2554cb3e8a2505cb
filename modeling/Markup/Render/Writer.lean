import Markup.Render.StartTag
import Markup.Tree.Node

set_option autoImplicit false

/-!
# Rendering

A writer appends markup to what has been written so far. The first fault in a tree stops it, and
the markup written up to there remains.
-/

namespace Markup

/-- Writing appends to a text and may stop at an error. -/
abbrev Writer := EStateM Error String Unit

def emit (text : String) : Writer := modify (· ++ text)

def writeElement (mode : Mode) (tag : Tag) (map? : Option Attrs) (hasChildren : Bool)
    (body : Writer) : Writer := do
  if hasChildren && Tag.isVoidName tag.name then
    throw (.voidTagWithChildren tag.name)
  emit ("<" ++ tag.name ++ tag.attributeText mode map?)
  if hasChildren then
    emit ">"
    body
    emit ("</" ++ tag.name ++ ">")
  else if mode.isContainer tag.name then emit ("></" ++ tag.name ++ ">")
  else if mode.isXml then emit " />"
  else emit ">"

mutual

def writeNode (options : RenderOptions) : Node → Writer
  | .null => pure ()
  | .scalar value => emit (options.escape value.text)
  | .raw markup => emit markup
  | .seq items => writeNodes options items
  | .attrs map => throw (.strayAttributes map.literal)
  | .list [] => throw (.malformedElement (Node.literal (.list [])))
  | .list (head :: rest) =>
    match head.asString?.bind Tag.parse? with
    | none => throw (.malformedElement (Node.literal (.list (head :: rest))))
    | some tag =>
      match rest with
      | .attrs map :: children =>
        writeElement options.mode tag (some map) (!children.isEmpty) (writeNodes options children)
      | children =>
        writeElement options.mode tag none (!children.isEmpty) (writeNodes options children)

def writeNodes (options : RenderOptions) : List Node → Writer
  | [] => pure ()
  | node :: rest => do
    writeNode options node
    writeNodes options rest

end

/-- The markup of some nodes, or the first fault in them. -/
def render (options : RenderOptions) (nodes : List Node) : Except Error String :=
  match (writeNodes options nodes).run "" with
  | .ok _ markup => .ok markup
  | .error fault _ => .error fault

/-- Nodes rendered on their own, as markup for a larger tree. -/
def prerender (options : RenderOptions) (nodes : List Node) : Except Error Node :=
  (render options nodes).map Node.raw

/-- A builder of nodes whose result is rendered. -/
def rendering {α : Type} (options : RenderOptions) (build : α → Node) (argument : α) :
    Except Error String :=
  render options [build argument]

end Markup
