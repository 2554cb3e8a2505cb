import Markup.Render.Writer
import Markup.Tree.Merge

set_option autoImplicit false

/-!
# The order of rendering

Rendering walks a tree in preorder: a node, what is inside it, and then the next one. Each node
adds something of its own before and behind its contents, or is at fault itself; the text of a
tree is put together from these pieces, and the walk ends at the first fault.
-/

namespace Markup

namespace Node

/-- The nodes that are rendered inside a node: the items of a sequence, and the children of an
    element behind its tag and its attribute map. -/
def contents : Node → List Node
  | .seq items => items
  | .list (_ :: rest) => (splitAttrs rest).2
  | _ => []

theorem sizeOf_splitAttrs_le (nodes : List Node) : sizeOf (splitAttrs nodes).2 ≤ sizeOf nodes := by
  unfold splitAttrs
  split
  · simp only [List.cons.sizeOf_spec]
    omega
  · exact Nat.le_refl _

theorem sizeOf_contents_lt (node : Node) (rest : List Node) :
    sizeOf node.contents < sizeOf (node :: rest) := by
  have hn : 0 < sizeOf node := by
    cases node with
    | null => exact Nat.one_pos
    | scalar | raw | seq | list | attrs => exact Nat.lt_add_right _ Nat.one_pos
  unfold contents
  split
  · simp only [List.cons.sizeOf_spec, seq.sizeOf_spec]
    omega
  · next head tail =>
    have hs := sizeOf_splitAttrs_le tail
    simp only [List.cons.sizeOf_spec, list.sizeOf_spec]
    omega
  · simp only [List.cons.sizeOf_spec, List.nil.sizeOf_spec]
    omega

def descriptor? (node : Node) : Option Tag := node.tag?.bind Tag.parse?

theorem asString?_eq_some_iff {node : Node} {string : String} :
    node.asString? = some string ↔ node = text string := by
  cases node with
  | scalar value => cases value <;> simp [asString?, Scalar.asString?, text]
  | null | raw | seq | list | attrs => simp [asString?, text]

theorem asString?_eq_none_iff {node : Node} :
    node.asString? = none ↔ ∀ string, node ≠ text string := by
  rw [Option.eq_none_iff_forall_ne_some]
  exact forall_congr' fun string => not_congr asString?_eq_some_iff

theorem descriptor?_eq_some_iff {items : List Node} {tag : Tag} :
    (list items).descriptor? = some tag ↔
      ∃ string rest, items = text string :: rest ∧ Tag.parse? string = some tag := by
  cases items with
  | nil => simp [descriptor?, tag?]
  | cons head rest =>
    simp only [descriptor?, tag?, Option.bind_eq_some_iff, asString?_eq_some_iff, List.cons.injEq]
    constructor
    · rintro ⟨string, rfl, h⟩
      exact ⟨string, rest, ⟨rfl, rfl⟩, h⟩
    · rintro ⟨string, _, ⟨rfl, rfl⟩, h⟩
      exact ⟨string, rfl, h⟩

def ownFault? (node : Node) : Option Error :=
  match node with
  | .attrs map => some (.strayAttributes map.literal)
  | .list items =>
    match descriptor? (.list items) with
    | none => some (.malformedElement (literal (.list items)))
    | some tag =>
      if Tag.isVoidName tag.name && !(contents (.list items)).isEmpty then
        some (.voidTagWithChildren tag.name)
      else none
  | _ => none

end Node

def Mode.childlessEnd (mode : Mode) (name : String) : String :=
  if mode.isContainer name then "></" ++ name ++ ">" else if mode.isXml then " />" else ">"

namespace Node

/-- What a node adds before its contents. -/
def opening (options : RenderOptions) : Node → String
  | .scalar value => options.escape value.text
  | .raw markup => markup
  | node =>
    match node.descriptor? with
    | none => ""
    | some tag =>
      "<" ++ tag.name ++ tag.attributeText options.mode node.attrs? ++
        if node.contents.isEmpty then options.mode.childlessEnd tag.name else ">"

def closing (node : Node) : String :=
  match node.descriptor? with
  | none => ""
  | some tag => if node.contents.isEmpty then "" else "</" ++ tag.name ++ ">"

theorem attrs?_list (head : Node) (rest : List Node) :
    (list (head :: rest)).attrs? = (splitAttrs rest).1 := by
  cases rest with
  | nil => rfl
  | cons first more => cases first <;> rfl

@[simp] theorem contents_list (head : Node) (rest : List Node) :
    (list (head :: rest)).contents = (splitAttrs rest).2 := rfl

/-! What the nodes besides elements are made of. -/

section Leaves

variable (options : RenderOptions)

@[simp] theorem contents_null : null.contents = [] := rfl
@[simp] theorem contents_scalar (value : Scalar) : (scalar value).contents = [] := rfl
@[simp] theorem contents_raw (text : String) : (raw text).contents = [] := rfl
@[simp] theorem contents_attrs (map : Attrs) : (attrs map).contents = [] := rfl
@[simp] theorem contents_seq (items : List Node) : (seq items).contents = items := rfl

@[simp] theorem ownFault?_null : null.ownFault? = none := rfl
@[simp] theorem ownFault?_scalar (value : Scalar) : (scalar value).ownFault? = none := rfl
@[simp] theorem ownFault?_raw (text : String) : (raw text).ownFault? = none := rfl
@[simp] theorem ownFault?_seq (items : List Node) : (seq items).ownFault? = none := rfl
@[simp] theorem ownFault?_attrs (map : Attrs) :
    (attrs map).ownFault? = some (.strayAttributes map.literal) := rfl

@[simp] theorem opening_null : null.opening options = "" := rfl
@[simp] theorem opening_raw (text : String) : (raw text).opening options = text := rfl
@[simp] theorem opening_seq (items : List Node) : (seq items).opening options = "" := rfl
@[simp] theorem opening_scalar (value : Scalar) :
    (scalar value).opening options = options.escape value.text := rfl

@[simp] theorem closing_null : null.closing = "" := rfl
@[simp] theorem closing_scalar (value : Scalar) : (scalar value).closing = "" := rfl
@[simp] theorem closing_raw (text : String) : (raw text).closing = "" := rfl
@[simp] theorem closing_seq (items : List Node) : (seq items).closing = "" := rfl

end Leaves

section Element

variable {items : List Node} {tag : Tag}

theorem ownFault?_malformed (h : (list items).descriptor? = none) :
    (list items).ownFault? = some (.malformedElement (list items).literal) := by
  simp only [ownFault?, h]

theorem ownFault?_element (h : (list items).descriptor? = some tag) :
    (list items).ownFault? =
      if Tag.isVoidName tag.name && !(list items).contents.isEmpty then
        some (.voidTagWithChildren tag.name)
      else none := by
  simp only [ownFault?, h]

theorem opening_element (options : RenderOptions) (h : (list items).descriptor? = some tag) :
    (list items).opening options =
      "<" ++ tag.name ++ tag.attributeText options.mode (list items).attrs? ++
        if (list items).contents.isEmpty then options.mode.childlessEnd tag.name else ">" := by
  simp only [opening, h]

theorem closing_element (h : (list items).descriptor? = some tag) :
    (list items).closing =
      if (list items).contents.isEmpty then "" else "</" ++ tag.name ++ ">" := by
  simp only [closing, h]

end Element

end Node

/-- The nodes of a tree in the order in which rendering reaches them. -/
def preorder : List Node → List Node
  | [] => []
  | node :: rest => node :: (preorder node.contents ++ preorder rest)
termination_by nodes => sizeOf nodes
decreasing_by
  · exact node.sizeOf_contents_lt rest
  · simp only [List.cons.sizeOf_spec]
    omega

def firstFault? (nodes : List Node) : Option Error := (preorder nodes).findSome? Node.ownFault?

/-- The text of a tree, as far as it gets. -/
def written (options : RenderOptions) : List Node → String
  | [] => ""
  | node :: rest =>
    if node.ownFault?.isSome then ""
    else
      node.opening options ++ written options node.contents ++
        if (firstFault? node.contents).isSome then "" else node.closing ++ written options rest
termination_by nodes => sizeOf nodes
decreasing_by
  · exact node.sizeOf_contents_lt rest
  · simp only [List.cons.sizeOf_spec]
    omega

def Node.markup (options : RenderOptions) (node : Node) : String :=
  if node.ownFault?.isSome then ""
  else
    node.opening options ++ written options node.contents ++
      if (firstFault? node.contents).isSome then "" else node.closing

theorem Node.markup_of_no_fault (options : RenderOptions) {node : Node}
    (ho : node.ownFault? = none) (hc : firstFault? node.contents = none) : node.markup options =
      node.opening options ++ (written options node.contents ++ node.closing) := by
  simp [Node.markup, ho, hc, String.append_assoc]

@[simp] theorem preorder_nil : preorder [] = [] := by
  rw [preorder]

theorem preorder_cons (node : Node) (rest : List Node) :
    preorder (node :: rest) = node :: (preorder node.contents ++ preorder rest) := by
  rw [preorder]

@[simp] theorem firstFault?_nil : firstFault? [] = none := by
  rw [firstFault?, preorder_nil]
  rfl

theorem firstFault?_cons (node : Node) (rest : List Node) :
    firstFault? (node :: rest) =
      node.ownFault?.or ((firstFault? node.contents).or (firstFault? rest)) := by
  rw [firstFault?, preorder_cons, List.findSome?_cons, List.findSome?_append]
  cases node.ownFault? <;> rfl

theorem firstFault?_singleton (node : Node) :
    firstFault? [node] = node.ownFault?.or (firstFault? node.contents) := by
  rw [firstFault?_cons, firstFault?_nil, Option.or_none]

@[simp] theorem written_nil (options : RenderOptions) : written options [] = "" := by
  rw [written]

theorem written_cons (options : RenderOptions) (node : Node) (rest : List Node) :
    written options (node :: rest) = node.markup options ++
      if (node.ownFault?.or (firstFault? node.contents)).isSome then ""
      else written options rest := by
  rw [written, Node.markup]
  cases node.ownFault? with
  | some fault => rfl
  | none => cases firstFault? node.contents <;> simp [String.append_assoc]

theorem written_singleton (options : RenderOptions) (node : Node) :
    written options [node] = node.markup options := by
  rw [written_cons, written_nil, ite_self, String.append_empty]

end Markup
