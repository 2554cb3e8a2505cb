import Markup.Proofs.Render.Skeleton
import Markup.Proofs.Tree.Merging

set_option autoImplicit false

/-!
# Merged attributes in markup

Attributes merged into an element show in its start tag and nowhere else: its name, its children
and the way it closes stay. In the start tag they win over the element's own, the classes of the
tag stay in front of theirs, and the identifier of the tag shows only if no map has one.
-/

namespace Markup

/-! ## Start tags -/

namespace Tag

/-- What an element shows for a key if its own attributes are overlaid by more. -/
def overlaid? (tag : Tag) (own more : Attrs) (key : String) : Option Shown :=
  if key = "class" then
    let classes :=
      joinClasses tag.classes (mapClasses (if more.contains "class" then more else own))
    if classes = "" then none else some (.quoted classes)
  else if key = "id" ∧ more.contains "id" = false ∧ own.contains "id" = false then
    tag.id?.map .quoted
  else ((more.get? key).or (own.get? key)).bind AttrValue.shown?

theorem mapClasses_update (own more : Attrs) :
    mapClasses (own.update more) = mapClasses (if more.contains "class" then more else own) := by
  unfold mapClasses
  rw [Attrs.get?_update, Attrs.contains]
  cases hm : more.get? "class" with
  | none => rfl
  | some value => simp only [Option.isSome_some, if_true, hm, Option.some_or]

theorem shown?_update (tag : Tag) (own more : Attrs) (key : String) :
    tag.shown? (own.update more) key = tag.overlaid? own more key := by
  have silent (map : Attrs) : map.contains "id" = false ↔ map.get? "id" = none := by
    rw [Attrs.contains, Option.isSome_eq_false_iff, Option.isNone_iff_eq_none]
  simp only [shown?, overlaid?, allClasses_eq, mapClasses_update, Attrs.get?_update,
    Option.or_eq_none_iff, silent]

/-- The attribute text of a start tag whose own attributes are overlaid by more: that of the
    updated map, which has what is shown for each key, in ascending order of the keys. -/
structure Overlaid (mode : Mode) (tag : Tag) (own more : Attrs) (attributes : String) : Prop where
  text : attributes = tag.attributeText mode (some (own.update more))
  entries : ∃ shown : List (String × Shown), Ascending shown ∧
    (∀ key value, (key, value) ∈ shown ↔ tag.overlaid? own more key = some value) ∧
      attributes = String.join (shown.map fun (key, value) => " " ++ value.markup mode key)

theorem overlaid_attributeText (mode : Mode) (tag : Tag) {own more : Attrs} {map? : Option Attrs}
    (h : map?.getD .empty = own.update more) :
    tag.Overlaid mode own more (tag.attributeText mode map?) := by
  have ht : tag.attributeText mode map? = tag.attributeText mode (some (own.update more)) := by
    rw [attributeText, h]
    rfl
  rw [ht]
  refine ⟨rfl, tag.shown (own.update more), ascending_shown .., fun key value => ?_, ?_⟩
  · rw [mem_shown_iff, shown?_update]
  · exact attributeText_eq ..

def markup (mode : Mode) (tag : Tag) (attributes : String) (children : List Node)
    (inside : String) : String :=
  "<" ++ tag.name ++ attributes ++
    if children.isEmpty then mode.childlessEnd tag.name
    else ">" ++ inside ++ "</" ++ tag.name ++ ">"

end Tag

/-! ## Elements -/

theorem render_malformed (options : RenderOptions) {items : List Node}
    (h : (Node.list items).descriptor? = none) :
    render options [.list items] = .error (.malformedElement (Node.list items).literal) := by
  rw [render_eq_error_iff, firstFault?_cons, Node.ownFault?_malformed h, Option.some_or]

theorem render_element (options : RenderOptions) {head : Node} {rest children : List Node}
    {map? : Option Attrs} {tag : Tag} (ht : (Node.list (head :: rest)).descriptor? = some tag)
    (hs : Node.splitAttrs rest = (map?, children)) : render options [.list (head :: rest)] =
      if Tag.isVoidName tag.name && !children.isEmpty then .error (.voidTagWithChildren tag.name)
      else (render options children).map
        (tag.markup options.mode (tag.attributeText options.mode map?) children) := by
  have ha : (Node.list (head :: rest)).attrs? = map? := by rw [Node.attrs?_list, hs]
  have hc : (Node.list (head :: rest)).contents = children := by rw [Node.contents_list, hs]
  have ho := Node.ownFault?_element ht
  rw [hc] at ho
  split
  · next hv =>
    rw [if_pos hv] at ho
    rw [render_eq_error_iff, firstFault?_cons, ho, Option.some_or]
  · next hv =>
    rw [if_neg hv] at ho
    have hf : firstFault? [.list (head :: rest)] = firstFault? children := by
      rw [firstFault?_singleton, ho, Option.none_or, hc]
    rw [render_eq, render_eq, hf]
    cases hn : firstFault? children with
    | some fault => rfl
    | none =>
      have hm := Node.markup_of_no_fault options ho (hc ▸ hn)
      rw [Node.opening_element options ht, Node.closing_element ht, ha, hc] at hm
      rw [written_singleton, hm]
      cases children with
      | nil => simp [Except.map, Tag.markup]
      | cons child more => simp [Except.map, Tag.markup, String.append_assoc]

namespace Node

theorem mergeAttrs_list (head : Node) {rest children : List Node} {own? : Option Attrs}
    (hs : splitAttrs rest = (own?, children)) (more? : Option Attrs) :
    ∃ map? others, (list (head :: rest)).mergeAttrs more? = list (head :: others) ∧
      splitAttrs others = (map?, children) ∧
      map?.getD .empty = (own?.getD .empty).update (more?.getD .empty) := by
  rw [mergeAttrs_eq]
  by_cases h : more?.getD .empty = .empty
  · rw [h, mergeAttrs_empty]
    exact ⟨own?, rest, rfl, hs, rfl⟩
  · rw [mergeAttrs_some h, addAttrs_list, hs]
    exact ⟨some _, .attrs _ :: children, rfl, rfl, rfl⟩

theorem mergeAttrs_of_not_list {node : Node} (h : ∀ head rest, node ≠ .list (head :: rest))
    (more? : Option Attrs) : node.mergeAttrs more? = node := by
  have ha (more : Attrs) : node.addAttrs more = node := by
    cases node with
    | list items =>
      cases items with
      | nil => rfl
      | cons head rest => exact absurd rfl (h head rest)
    | null | scalar | raw | seq | attrs => rfl
  cases more? with
  | none => rfl
  | some more => rw [mergeAttrs, ha, ite_self]

end Node

/-- How the markup of a node changes with more attributes merged into it: only the attributes in
    the start tag of an element do. -/
inductive MergedMarkup (options : RenderOptions) (more : Attrs) : Node → String → String → Prop
  | other {node : Node} (h : ∀ head rest, node ≠ .list (head :: rest)) (markup : String) :
    MergedMarkup options more node markup markup
  | element (head : Node) (rest : List Node) {own? : Option Attrs} {children : List Node}
    {tag : Tag} {inside attributes : String}
    (ht : (Node.list (head :: rest)).descriptor? = some tag)
    (hs : Node.splitAttrs rest = (own?, children))
    (hi : render options children = .ok inside)
    (ha : tag.Overlaid options.mode (own?.getD .empty) more attributes) :
    MergedMarkup options more (.list (head :: rest))
      (tag.markup options.mode (tag.attributeText options.mode own?) children inside)
      (tag.markup options.mode attributes children inside)

theorem Agree.refl {Related : String → String → Prop} (h : ∀ markup, Related markup markup)
    (result : Except Error String) : Agree Related result result := by
  cases result with
  | ok markup => exact .ok (h markup)
  | error fault => exact .error rfl

theorem agree_mergeAttrs_list (options : RenderOptions) (head : Node) (rest : List Node)
    (more? : Option Attrs) :
    Agree (MergedMarkup options (more?.getD .empty) (.list (head :: rest)))
      (render options [.list (head :: rest)])
      (render options [(Node.list (head :: rest)).mergeAttrs more?]) := by
  cases hs : Node.splitAttrs rest with
  | mk own? children =>
    obtain ⟨map?, others, hm, ho, ha⟩ := Node.mergeAttrs_list head hs more?
    rw [hm]
    have hd : (Node.list (head :: others)).descriptor? = (Node.list (head :: rest)).descriptor? :=
      rfl
    cases ht : (Node.list (head :: rest)).descriptor? with
    | none =>
      rw [render_malformed options ht, render_malformed options (hd.trans ht)]
      exact .error rfl
    | some tag =>
      rw [render_element options ht hs, render_element options (hd.trans ht) ho]
      split
      · exact .error rfl
      · cases hi : render options children with
        | error fault => exact .error rfl
        | ok inside =>
          have hx := tag.overlaid_attributeText options.mode ha
          exact .ok (.element head rest ht hs hi hx)

/-- Merging attributes into a node changes nothing but its outermost start tag: the node renders
    as before apart from the attributes there, or fails alike. -/
theorem render_mergeAttrs (options : RenderOptions) (node : Node) (more? : Option Attrs) :
    Agree (MergedMarkup options (more?.getD .empty) node)
      (render options [node]) (render options [node.mergeAttrs more?]) := by
  by_cases hl : ∃ head rest, node = .list (head :: rest)
  · obtain ⟨head, rest, rfl⟩ := hl
    exact agree_mergeAttrs_list options head rest more?
  · have hn (head : Node) (rest : List Node) : node ≠ .list (head :: rest) :=
      fun h => hl ⟨head, rest, h⟩
    rw [Node.mergeAttrs_of_not_list hn]
    exact .refl (fun markup => .other hn markup) _

end Markup
