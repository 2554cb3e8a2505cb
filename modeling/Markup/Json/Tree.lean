import Markup.Json.Value
import Markup.Tree.Node

set_option autoImplicit false

/-!
# Trees from JSON

JSON has the shapes of a tree of markup: arrays are elements, objects are attribute maps, and
everything else is a leaf.
-/

namespace Markup.Json

/-- A number in a tree. Whatever is an integer with or without a sign stays one. -/
def Number.scalar (number : Number) : Scalar :=
  match number.asSigned? with
  | some value => .int value.toInt
  | none =>
    match number.asUnsigned? with
    | some value => .int value.toNat
    | none => .float number.asDouble

def isScalar : Json → Bool
  | .bool _ => true
  | .number _ => true
  | .string _ => true
  | _ => false

def scalar? : Json → Option Scalar
  | .bool value => some (.bool value)
  | .number value => some value.scalar
  | .string text => some (.str text)
  | _ => none

/-- A value as that of an attribute. What is nested more deeply than a list of scalars has no form
    in markup and stays JSON text. -/
def attrValue : Json → AttrValue
  | .null => .null
  | .array items =>
    if items.all isScalar then .list (items.filterMap scalar?)
    else .str (Json.text (.array items))
  | .object members => .str (Json.text (.object members))
  | leaf => leaf.scalar?.elim .null .scalar

def attrs (members : List (String × Json)) : Attrs :=
  .ofPairs (members.map fun (key, value) => (key, value.attrValue))

mutual

def node : Json → Node
  | .null => .null
  | .array items => .list (nodes items)
  | .object members => .attrs (attrs members)
  | leaf => leaf.scalar?.elim .null .scalar

def nodes : List Json → List Node
  | [] => []
  | item :: rest => node item :: nodes rest

end

end Markup.Json
