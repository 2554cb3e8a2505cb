import Markup.Tree.Attrs

set_option autoImplicit false

/-!
# Nodes

A tree of markup as plain data. An element is a list: a tag in front, then an attribute map if there
is one, then the children. Everything else is a leaf or a sequence of nodes to be shown one after
the other.
-/

namespace Markup

inductive Node where
  | null
  /-- Text, escaped when shown. -/
  | scalar (value : Scalar)
  /-- Markup that is shown as it is. -/
  | raw (markup : String)
  | seq (items : List Node)
  /-- An element: tag, attributes and children. -/
  | list (items : List Node)
  /-- The attributes of an element, in the place after its tag. -/
  | attrs (map : Attrs)
deriving Inhabited

namespace Node

def text (text : String) : Node := .scalar (.str text)

def text? : Option String → Node
  | some s => text s
  | none => .null

def element (tag : String) (children : List Node) : Node := .list (text tag :: children)

def elementWith (tag : String) (map : Attrs) (children : List Node) : Node :=
  .list (text tag :: .attrs map :: children)

def asString? : Node → Option String
  | .scalar value => value.asString?
  | _ => none

def tag? : Node → Option String
  | .list (head :: _) => head.asString?
  | _ => none

def attrs? : Node → Option Attrs
  | .list (_ :: .attrs map :: _) => some map
  | _ => none

def items? : Node → Option (List Node)
  | .seq items => some items
  | _ => none

def isNull : Node → Bool
  | .null => true
  | _ => false

def isAttrs : Node → Bool
  | .attrs _ => true
  | _ => false

def isList : Node → Bool
  | .list _ => true
  | _ => false

def isRaw : Node → Bool
  | .raw _ => true
  | _ => false

mutual

/-- The text in a node, unescaped and without tags. -/
def flatText : Node → String
  | .null => ""
  | .attrs _ => ""
  | .raw markup => markup
  | .scalar value => value.text
  | .list items => flatTexts items
  | .seq items => flatTexts items

def flatTexts : List Node → String
  | [] => ""
  | node :: rest => flatText node ++ flatTexts rest

end

def flatten (node : Node) : Node := .raw node.flatText

mutual

/-- A node as messages show it. The items of a sequence are not shown. -/
def literal : Node → String
  | .null => "nil"
  | .scalar value => value.literal
  | .raw markup => "raw(" ++ Text.quoted markup ++ ")"
  | .seq _ => "<lazy>"
  | .list items => "[" ++ ", ".intercalate (literals items) ++ "]"
  | .attrs map => map.literal

def literals : List Node → List String
  | [] => []
  | node :: rest => literal node :: literals rest

end

mutual

/-- Nodes are equal if they are of one kind and have equal parts. A sequence equals nothing. -/
protected def beq : Node → Node → Bool
  | .null, .null => true
  | .scalar a, .scalar b => a == b
  | .raw a, .raw b => a == b
  | .list a, .list b => Node.beqList a b
  | .attrs a, .attrs b => a == b
  | _, _ => false

protected def beqList : List Node → List Node → Bool
  | [], [] => true
  | a :: as, b :: bs => Node.beq a b && Node.beqList as bs
  | _, _ => false

end

instance : BEq Node := ⟨Node.beq⟩

end Node

end Markup
