import Markup.Proofs.Render.Prerendered

set_option autoImplicit false

/-!
# Sequences among nodes

A sequence is written by writing its items, and the nodes around it are written one after the other.
So the items may stand where the sequence stands, to the same effect: the same text is added, and
the same error ends it. In an element two things have to stay as they are, since it looks at its
children before it writes them: whether it has any, and whether an attribute map is in front.
-/

namespace Markup

/-! ## Among nodes -/

section Nodes

variable (options : RenderOptions)

theorem writeNodes_append (nodes more : List Node) :
    writeNodes options (nodes ++ more) =
      (do writeNodes options nodes; writeNodes options more) := by
  induction nodes with
  | nil => rfl
  | cons node rest ih => rw [List.cons_append, writeNodes, ih, writeNodes, bind_assoc]

theorem writeNodes_splice (before items after : List Node) :
    writeNodes options (before ++ .seq items :: after) =
      writeNodes options (before ++ (items ++ after)) := by
  have h : writeNodes options (.seq items :: after) = writeNodes options (items ++ after) := by
    rw [writeNodes, writeNode, writeNodes_append]
  rw [writeNodes_append, h, ← writeNodes_append]

end Nodes

namespace Node

/-! ## In an element -/

/-- Where the items of a sequence stand in its place, the same nodes are in front of them among the
    children, unless the first item is taken for an attribute map. -/
theorem splitAttrs_splice {before items after : List Node}
    (h : (splitAttrs (before ++ (items ++ after))).1.isSome =
      (splitAttrs (before ++ .seq items :: after)).1.isSome) :
    ∃ own? front,
      splitAttrs (before ++ .seq items :: after) = (own?, front ++ .seq items :: after) ∧
      splitAttrs (before ++ (items ++ after)) = (own?, front ++ (items ++ after)) := by
  cases before with
  | nil =>
    have hn : (splitAttrs (items ++ after)).1 = none :=
      Option.isNone_iff_eq_none.mp (Option.isSome_eq_false_iff.mp h)
    exact ⟨none, [], rfl, splitAttrs_of_none hn⟩
  | cons first more =>
    rw [List.cons_append, List.cons_append, splitAttrs_cons, splitAttrs_cons]
    cases first.asAttrs? with
    | none => exact ⟨none, first :: more, rfl, rfl⟩
    | some map => exact ⟨some map, more, rfl, rfl⟩

/-- An element is written by its tag, its attribute map and its children, of which it also matters
    whether there are any. Its literal only matters if it has no tag. -/
theorem writeNode_list_congr {options : RenderOptions} {as bs : List Node}
    (hd : (list as).descriptor? = (list bs).descriptor?)
    (hl : (list as).descriptor? = none → (list as).literal = (list bs).literal)
    (hm : (list as).attrs? = (list bs).attrs?)
    (he : (list as).contents.isEmpty = (list bs).contents.isEmpty)
    (hw : writeNodes options (list as).contents = writeNodes options (list bs).contents) :
    writeNode options (.list as) = writeNode options (.list bs) := by
  rw [writeNode_list, writeNode_list, ← hd, ← hm, ← he, ← hw]
  cases ht : (list as).descriptor? with
  | none => rw [hl ht]
  | some tag => rfl

theorem writeNode_list_splice (options : RenderOptions) {head : Node}
    {before items after : List Node} {tag : Tag}
    (ht : (list (head :: (before ++ .seq items :: after))).descriptor? = some tag)
    (hc : (splitAttrs (before ++ (items ++ after))).2 ≠ [])
    (hm : (splitAttrs (before ++ (items ++ after))).1.isSome =
      (splitAttrs (before ++ .seq items :: after)).1.isSome) :
    writeNode options (.list (head :: (before ++ .seq items :: after))) =
      writeNode options (.list (head :: (before ++ (items ++ after)))) := by
  obtain ⟨own?, front, hs, ho⟩ := splitAttrs_splice hm
  have hf : front ++ .seq items :: after ≠ [] := by simp
  rw [ho] at hc
  apply writeNode_list_congr
  case hd => rfl
  case hl =>
    intro hn
    rw [ht] at hn
    cases hn
  case hm => rw [attrs?_list, attrs?_list, hs, ho]
  case he =>
    rw [contents_list, contents_list, hs, ho, List.isEmpty_eq_false_iff.mpr hf,
      List.isEmpty_eq_false_iff.mpr hc]
  case hw =>
    rw [contents_list, contents_list, hs, ho]
    exact writeNodes_splice options front items after

/-! ## Inside a larger tree -/

/-- Nodes that are written alike wherever they stand: they have one literal for messages, and no
    element takes just one of them for its tag or its attribute map. -/
structure Synonymous (options : RenderOptions) (a b : Node) : Prop where
  literal : a.literal = b.literal
  string : a.asString? = b.asString?
  attrs : a.asAttrs? = b.asAttrs?
  writer : writeNode options a = writeNode options b

variable {options : RenderOptions} {as bs : List Node}

theorem literals_synonymous (h : List.Forall₂ (Synonymous options) as bs) :
    literals as = literals bs := by
  induction h with
  | nil => rfl
  | cons hn _ ih => rw [literals, literals, hn.literal, ih]

theorem writeNodes_synonymous (h : List.Forall₂ (Synonymous options) as bs) :
    writeNodes options as = writeNodes options bs := by
  induction h with
  | nil => rfl
  | cons hn _ ih => rw [writeNodes, writeNodes, hn.writer, ih]

theorem isEmpty_synonymous (h : List.Forall₂ (Synonymous options) as bs) :
    as.isEmpty = bs.isEmpty := by
  cases h <;> rfl

theorem splitAttrs_synonymous (h : List.Forall₂ (Synonymous options) as bs) :
    (splitAttrs as).1 = (splitAttrs bs).1 ∧
      List.Forall₂ (Synonymous options) (splitAttrs as).2 (splitAttrs bs).2 := by
  cases h with
  | nil => exact ⟨rfl, .nil⟩
  | @cons a b as bs hn ht =>
    rw [splitAttrs_cons, splitAttrs_cons, hn.attrs]
    cases b.asAttrs? with
    | none => exact ⟨rfl, .cons hn ht⟩
    | some map => exact ⟨rfl, ht⟩

theorem synonymous_seq (h : writeNodes options as = writeNodes options bs) :
    (seq as).Synonymous options (seq bs) := by
  refine ⟨rfl, rfl, rfl, ?_⟩
  rw [writeNode, writeNode, h]

theorem writeNode_list_synonymous (h : List.Forall₂ (Synonymous options) as bs) :
    writeNode options (.list as) = writeNode options (.list bs) := by
  have hl : (list as).literal = (list bs).literal := by
    rw [literal, literal, literals_synonymous h]
  cases h with
  | nil => rfl
  | @cons head other as bs hh ht =>
    obtain ⟨hm, hc⟩ := splitAttrs_synonymous ht
    apply writeNode_list_congr
    case hd => simp only [descriptor?, tag?, hh.string]
    case hl => exact fun _ => hl
    case hm => rw [attrs?_list, attrs?_list, hm]
    case he => exact isEmpty_synonymous hc
    case hw => exact writeNodes_synonymous hc

theorem synonymous_list (h : List.Forall₂ (Synonymous options) as bs) :
    (list as).Synonymous options (list bs) := by
  refine ⟨?_, rfl, rfl, writeNode_list_synonymous h⟩
  rw [literal, literal, literals_synonymous h]

theorem congruence_synonymous : Congruence (Synonymous options) where
  refl _ := ⟨rfl, rfl, rfl, rfl⟩
  seq h := synonymous_seq (writeNodes_synonymous h)
  list h := synonymous_list h

end Node

/-- Sequences are transparent. In an element whose children are some with and without it, and whose
    attribute map is one with and without it, a sequence may give way to its items; among nodes, and
    among the items of a sequence anywhere in a tree, it always may. The writers are equal: from
    every text they go on with the same text and to the same result. -/
theorem sequence_transparent (options : RenderOptions) (before items after : List Node) :
    (∀ (string : String) (tag : Tag),
      let whole := Node.list (Node.text string :: (before ++ .seq items :: after))
      let spliced := Node.list (Node.text string :: (before ++ (items ++ after)))
      Tag.parse? string = some tag → spliced.contents ≠ [] →
        spliced.attrs?.isSome = whole.attrs?.isSome →
          writeNode options whole = writeNode options spliced) ∧
      writeNodes options (before ++ .seq items :: after) =
        writeNodes options (before ++ (items ++ after)) ∧
      ∀ place : Place, writeNodes options (place.fill (.seq (before ++ .seq items :: after))) =
        writeNodes options (place.fill (.seq (before ++ (items ++ after)))) := by
  refine ⟨?_, writeNodes_splice .., fun place => ?_⟩
  · intro string tag whole spliced ht hc hm
    rw [Node.attrs?_list, Node.attrs?_list] at hm
    exact Node.writeNode_list_splice options ht hc hm
  · have hs := Node.synonymous_seq (writeNodes_splice options before items after)
    exact Node.writeNodes_synonymous (Node.congruence_synonymous.fill hs place)

/-- A list item whose sequence holds a malformed element between a text and what follows it. -/
theorem sequence_transparent_list_item :
    let items := [Node.text "a", .list [], Node.text "b"]
    let whole := Node.list [Node.text "li", .attrs .empty, .seq items, .null]
    let spliced := Node.list [Node.text "li", .attrs .empty, Node.text "a", .list [],
      Node.text "b", .null]
    Tag.parse? "li" = some ⟨"li", none, ""⟩ ∧ spliced.contents ≠ [] ∧
      spliced.attrs?.isSome = whole.attrs?.isSome ∧
      writeNode ⟨.html, true⟩ whole = writeNode ⟨.html, true⟩ spliced := by
  intro items whole spliced
  have ht : Tag.parse? "li" = some ⟨"li", none, ""⟩ := by decide
  have hc : spliced.contents ≠ [] := List.cons_ne_nil _ _
  have h := sequence_transparent ⟨.html, true⟩ [.attrs .empty] items [.null]
  exact ⟨ht, hc, rfl, h.1 "li" _ ht hc rfl⟩

end Markup
