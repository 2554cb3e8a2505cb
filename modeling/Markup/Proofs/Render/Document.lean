import Markup.Proofs.Render.StartTags
import Markup.Proofs.Render.Writing

set_option autoImplicit false

/-!
# Reading markup back

The markup of a tree tells a scanner exactly what the tree says, in the order of rendering: the
tags of every element around those inside it, their attributes, and the texts between the tags.
-/

namespace Markup

inductive Piece where
  | text (text : String)
  | mark (mark : Mark)

namespace Outline

def put : Piece → Outline → Outline
  | .text text => addText text
  | .mark mark => addMark mark

/-- Puts pieces in front of an outline. Texts with no tag between them become one. -/
def gather (pieces : List Piece) (after : Outline) : Outline := pieces.foldr put after

@[simp] theorem gather_nil : gather [] = id := rfl

@[simp] theorem gather_text (text : String) (pieces : List Piece) :
    gather (.text text :: pieces) = addText text ∘ gather pieces := rfl

@[simp] theorem gather_mark (mark : Mark) (pieces : List Piece) :
    gather (.mark mark :: pieces) = addMark mark ∘ gather pieces := rfl

theorem gather_append (a b : List Piece) : gather (a ++ b) = gather a ∘ gather b := by
  funext after
  exact List.foldr_append

end Outline

/-- Every end tag is that of the element opened last, and none stays open. -/
def Nested : List String → List Mark → Prop
  | [], [] => True
  | _ :: _, [] => False
  | names, .start name _ :: rest => Nested (name :: names) rest
  | [], .stop _ :: _ => False
  | name :: names, .stop other :: rest => name = other ∧ Nested names rest

structure Outline.WellFormed (outline : Outline) : Prop where
  nested : Nested [] (outline.marks.map Prod.fst)
  ascending : ∀ name attributes, Mark.start name attributes ∈ outline.marks.map Prod.fst →
    Ascending attributes

namespace Node

/-- What a document has for a node before its contents. -/
def before : Node → List Piece
  | .scalar value => [.text value.text]
  | node =>
    match node.descriptor? with
    | none => []
    | some tag => [.mark (.start tag.name (tag.attributes node.attrs?))]

def behind (node : Node) : List Piece :=
  match node.descriptor? with
  | none => []
  | some tag => [.mark (.stop tag.name)]

/-- A node without raw markup, whose names stand in markup as they are. -/
structure IsPlain (node : Node) : Prop where
  escaped : node.isRaw = false
  name : ∀ tag, node.descriptor? = some tag → IsPlainName tag.name
  keys : HasPlainKeys node.attrs?

instance (node : Node) : Decidable node.IsPlain :=
  decidable_of_iff (node.isRaw = false ∧ (∀ tag ∈ node.descriptor?, IsPlainName tag.name) ∧
      ∀ key ∈ (node.attrs?.getD .empty).keys, IsPlainName key)
    ⟨fun ⟨he, hn, hk⟩ => ⟨he, hn, hk⟩, fun ⟨he, hn, hk⟩ => ⟨he, hn, hk⟩⟩

end Node

def document : List Node → List Piece
  | [] => []
  | node :: rest => node.before ++ (document node.contents ++ (node.behind ++ document rest))
termination_by nodes => sizeOf nodes
decreasing_by
  · exact node.sizeOf_contents_lt rest
  · simp only [List.cons.sizeOf_spec]
    omega

@[simp] theorem document_nil : document [] = [] := by
  rw [document]

theorem document_cons (node : Node) (rest : List Node) : document (node :: rest) =
    node.before ++ (document node.contents ++ (node.behind ++ document rest)) := by
  rw [document]

/-! ## Scanning -/

section Scanning

variable {options : RenderOptions} (hm : options.mode ≠ .sgml) (he : options.escapeStrings = true)
include hm

theorem scan_list (rest : List Char) {items : List Node}
    (hp : (Node.list items).IsPlain) (hf : (Node.list items).ownFault? = none)
    (hc : firstFault? (Node.list items).contents = none)
    (inner : ∀ rest, scan ((written options (Node.list items).contents).toList ++ rest) =
      (scan rest).map (Outline.gather (document (Node.list items).contents))) :
    scan (((Node.list items).markup options).toList ++ rest) =
      (scan rest).map (Outline.gather ((Node.list items).before ++
        (document (Node.list items).contents ++ (Node.list items).behind))) := by
  cases hd : (Node.list items).descriptor? with
  | none =>
    rw [Node.ownFault?_malformed hd] at hf
    cases hf
  | some tag =>
    have hn := hp.name tag hd
    have hb : (Node.list items).before =
        [.mark (.start tag.name (tag.attributes (Node.list items).attrs?))] := by
      simp only [Node.before, hd]
    have ht : (Node.list items).behind = [.mark (.stop tag.name)] := by
      simp only [Node.behind, hd]
    rw [Node.markup_of_no_fault options hf hc, Node.opening_element options hd, Node.closing_element hd,
      hb, ht]
    cases hi : (Node.list items).contents with
    | nil =>
      have hs := scan_childless rest hm hn hp.keys
      simpa [hi] using hs
    | cons child more =>
      have hv : Tag.isVoidName tag.name = false := by
        rw [Node.ownFault?_element hd, hi] at hf
        simpa using hf
      have hs := scan_start ((written options (child :: more)).toList ++
        (("</" ++ tag.name ++ ">").toList ++ rest)) hm hn hp.keys hv
      rw [hi] at inner
      rw [inner, scan_stop rest hn, Option.map_map, Option.map_map] at hs
      simpa [Outline.gather_append, Function.comp_assoc] using hs

include he

theorem scan_node (rest : List Char) {node : Node} (hp : node.IsPlain)
    (hf : node.ownFault? = none) (hc : firstFault? node.contents = none)
    (inner : ∀ rest, scan ((written options node.contents).toList ++ rest) =
      (scan rest).map (Outline.gather (document node.contents))) :
    scan ((node.markup options).toList ++ rest) = (scan rest).map
      (Outline.gather (node.before ++ (document node.contents ++ node.behind))) := by
  cases node with
  | null => simp [Node.markup, Node.before, Node.behind, Node.descriptor?, Node.tag?]
  | scalar value =>
    have hs := scan_escape_append hm value.text rest
    simpa [Node.markup, RenderOptions.escape, he, Node.before, Node.behind, Node.descriptor?,
      Node.tag?] using hs
  | raw markup => exact absurd hp.escaped (by simp [Node.isRaw])
  | attrs map => cases hf
  | seq items =>
    rw [Node.markup_of_no_fault options hf hc]
    simpa [Node.before, Node.behind, Node.descriptor?, Node.tag?] using inner rest
  | list items => exact scan_list hm rest hp hf hc inner

theorem scan_written {nodes : List Node} (hf : firstFault? nodes = none)
    (hp : ∀ node ∈ preorder nodes, node.IsPlain) (rest : List Char) :
    scan ((written options nodes).toList ++ rest) =
      (scan rest).map (Outline.gather (document nodes)) := by
  -- for any markup behind, since the contents of a node stand before its end tag
  induction nodes using preorder.induct generalizing rest with
  | case1 => simp
  | case2 node more inner outer =>
    rw [firstFault?_cons, Option.or_eq_none_iff, Option.or_eq_none_iff] at hf
    obtain ⟨ho, hc, hr⟩ := hf
    rw [preorder_cons, List.forall_mem_cons, List.forall_mem_append] at hp
    obtain ⟨hn, hi, hl⟩ := hp
    have hs := scan_node hm he ((written options more).toList ++ rest) hn ho hc
      (inner hc hi)
    rw [outer hr hl, Option.map_map, ← Outline.gather_append] at hs
    rw [document_cons, written_cons, ho, hc]
    simpa using hs

end Scanning

/-! ## Shape -/

def Piece.mark? : Piece → Option Mark
  | .text _ => none
  | .mark tag => some tag

theorem marks_gather (pieces : List Piece) (after : Outline) :
    (Outline.gather pieces after).marks.map Prod.fst =
      pieces.filterMap Piece.mark? ++ after.marks.map Prod.fst := by
  induction pieces with
  | nil => rfl
  | cons piece rest ih =>
    cases piece with
    | text text => exact ih
    | mark tag => exact congrArg (tag :: ·) ih

theorem marks_node (node : Node) :
    (∃ tag map?, node.before.filterMap Piece.mark? = [.start tag.name (Tag.attributes tag map?)] ∧
        node.behind.filterMap Piece.mark? = [.stop tag.name]) ∨
      node.before.filterMap Piece.mark? = [] ∧ node.behind.filterMap Piece.mark? = [] := by
  cases node with
  | list items =>
    cases hd : (Node.list items).descriptor? with
    | none =>
      right
      simp [Node.before, Node.behind, hd]
    | some tag =>
      left
      exact ⟨tag, (Node.list items).attrs?, by simp [Node.before, Node.behind, hd, Piece.mark?]⟩
  | null | scalar | raw | seq | attrs => exact Or.inr ⟨rfl, rfl⟩

theorem nested_document (nodes : List Node) (names : List String) (rest : List Mark) :
    Nested names ((document nodes).filterMap Piece.mark? ++ rest) ↔ Nested names rest := by
  -- whatever is open stays open behind the contents, so the end tag of a node meets its start tag
  induction nodes using preorder.induct generalizing names rest with
  | case1 => simp
  | case2 node more inner outer =>
    simp only [document_cons, List.filterMap_append, List.append_assoc]
    rcases marks_node node with ⟨tag, map?, hb, ht⟩ | ⟨hb, ht⟩
    · rw [hb, ht]
      simp only [List.singleton_append, Nested, inner, outer, true_and]
    · rw [hb, ht, List.nil_append, List.nil_append, inner, outer]

theorem ascending_attributes (tag : Tag) (map? : Option Attrs) :
    Ascending (tag.attributes map?) :=
  List.pairwise_map.mpr (Tag.ascending_shown tag _)

theorem ascending_of_mem_document {nodes : List Node} {name : String}
    {attributes : List (String × String)}
    (h : .start name attributes ∈ (document nodes).filterMap Piece.mark?) :
    Ascending attributes := by
  induction nodes using preorder.induct with
  | case1 => simp at h
  | case2 node more inner outer =>
    simp only [document_cons, List.filterMap_append, List.mem_append] at h
    rcases h with h | h | h | h
    · rcases marks_node node with ⟨tag, map?, hb, -⟩ | ⟨hb, -⟩
      · rw [hb, List.mem_singleton] at h
        cases h
        exact ascending_attributes tag map?
      · simp [hb] at h
    · exact inner h
    · rcases marks_node node with ⟨tag, map?, -, ht⟩ | ⟨-, ht⟩ <;> simp [ht] at h
    · exact outer h

theorem wellFormed_gather_document (nodes : List Node) :
    (Outline.gather (document nodes) (.ofText "")).WellFormed := by
  constructor
  · rw [marks_gather, nested_document]
    trivial
  · intro name attributes h
    rw [marks_gather, List.mem_append] at h
    rcases h with h | h
    · exact ascending_of_mem_document h
    · cases h

/-- Markup is faithful: where no raw markup and no odd name is in the way, a scanner recovers from
    it exactly the document that the tree stands for, well formed. -/
theorem scan_render_document (options : RenderOptions) (hm : options.mode ≠ .sgml)
    (he : options.escapeStrings = true) {nodes : List Node}
    (hp : ∀ node ∈ preorder nodes, node.IsPlain) {markup : String}
    (hr : render options nodes = .ok markup) :
    scan markup.toList = some (.gather (document nodes) (.ofText "")) ∧
      (Outline.gather (document nodes) (.ofText "")).WellFormed := by
  refine ⟨?_, wellFormed_gather_document nodes⟩
  rw [render_eq] at hr
  cases hf : firstFault? nodes with
  | some fault => simp [hf] at hr
  | none =>
    rw [hf] at hr
    cases hr
    have hs := scan_written hm he hf hp []
    rw [List.append_nil, scan_of_no_tag List.not_mem_nil, unescaped_nil] at hs
    exact hs

/-- A paragraph with a title that needs escaping, and a void element inside. -/
theorem scan_titled_paragraph :
    let title := Attrs.ofPairs [("title", .str "<\"&\">")]
    let nodes := [Node.elementWith "p" title [.text "1 < 2", .element "br" []]]
    (∀ node ∈ preorder nodes, node.IsPlain) ∧ ∃ markup, render ⟨.html, true⟩ nodes = .ok markup ∧
      scan markup.toList = some (.gather (document nodes) (.ofText "")) ∧
      (Outline.gather (document nodes) (.ofText "")).WellFormed := by
  intro title nodes
  have ho : preorder nodes = [Node.elementWith "p" title [.text "1 < 2", .element "br" []],
      .text "1 < 2", .element "br" []] := by
    simp [nodes, preorder_cons, Node.elementWith, Node.element, Node.splitAttrs, Node.text]
  have hp : ∀ node ∈ preorder nodes, node.IsPlain := by
    rw [ho]
    decide
  have hf : firstFault? nodes = none := by
    rw [firstFault?, ho]
    decide
  obtain ⟨markup, hr⟩ := (render_eq_ok_iff ⟨.html, true⟩).mpr hf
  exact ⟨hp, markup, hr, scan_render_document ⟨.html, true⟩ (by decide) rfl hp hr⟩

end Markup
