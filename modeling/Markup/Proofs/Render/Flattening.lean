import Markup.Proofs.Render.Composition

set_option autoImplicit false

/-!
# Flattened nodes

A node can be flattened to raw markup: the texts of its leaves one after the other, unescaped and
without tags. Where there are no elements this is what the node renders to without escaping.
-/

namespace Markup

namespace Node

/-- A node without elements and attribute maps: a leaf, or a sequence of such nodes. -/
inductive Elementless : Node → Prop
  | null : Elementless .null
  | scalar (value : Scalar) : Elementless (.scalar value)
  | raw (markup : String) : Elementless (.raw markup)
  | seq {items : List Node} (h : ∀ item ∈ items, item.Elementless) : Elementless (.seq items)

theorem flatTexts_eq_join (nodes : List Node) :
    flatTexts nodes = String.join (nodes.map flatText) := by
  induction nodes with
  | nil => rw [flatTexts, List.map_nil, String.join_nil]
  | cons node rest ih => rw [flatTexts, ih, List.map_cons, String.join_cons]

theorem flatText_of_items {node : Node} {items : List Node}
    (h : node = .list items ∨ node = .seq items) :
    node.flatText = String.join (items.map flatText) := by
  rcases h with rfl | rfl <;> rw [flatText, flatTexts_eq_join]

end Node

theorem render_eq_join {options : RenderOptions} {text : Node → String} {nodes : List Node}
    (h : ∀ node ∈ nodes, render options [node] = .ok (text node)) :
    render options nodes = .ok (String.join (nodes.map text)) := by
  induction nodes with
  | nil => exact render_nil options
  | cons node rest ih =>
    obtain ⟨hn, hr⟩ := List.forall_mem_cons.mp h
    rw [render_cons, hn, ih hr, List.map_cons, String.join_cons]
    rfl

theorem render_scalar_unescaped (mode : Mode) (value : Scalar) :
    render ⟨mode, false⟩ [.scalar value] = .ok value.text :=
  render_scalar ⟨mode, false⟩ value

theorem Node.Elementless.render {node : Node} (h : node.Elementless) (mode : Mode) :
    render ⟨mode, false⟩ [node] = .ok node.flatText := by
  induction h with
  | null => rw [render_null, flatText]
  | scalar value => rw [render_scalar_unescaped, flatText]
  | raw markup => rw [render_raw, flatText]
  | seq h ih => rw [render_seq, render_eq_join ih, flatText_of_items (.inr rfl)]

/-- A flattened node has the markup of the items one after the other, if it is a list or a sequence,
    and stays the same if it is rendered or flattened again. A node without elements has the same
    markup if it is rendered without escaping. -/
theorem flatten_agrees_with_rendering (node : Node) :
    ∃ markup, node.flatten = .raw markup ∧
      (node.Elementless → ∀ mode, render ⟨mode, false⟩ [node] = .ok markup) ∧
      (∀ items, node = .list items ∨ node = .seq items →
        ∃ markups, items.map Node.flatten = markups.map .raw ∧ markup = String.join markups) ∧
      (∀ options, render options [node.flatten] = .ok markup) ∧
      node.flatten.flatten = node.flatten := by
  refine ⟨node.flatText, rfl, fun h mode => h.render mode, fun items hi => ?_,
    fun options => render_raw options _, ?_⟩
  · exact ⟨items.map Node.flatText, by simp [Node.flatten], Node.flatText_of_items hi⟩
  · simp [Node.flatten, Node.flatText]

theorem flatten_agrees_with_rendering_nested :
    let node := Node.seq [.text "a < b", .seq [.raw "<br>", .null], .scalar (.fraction (1 / 4))]
    node.Elementless ∧ ∃ markup, node.flatten = .raw markup ∧
      ∀ mode, render ⟨mode, false⟩ [node] = .ok markup := by
  intro node
  have hi : (Node.seq [.raw "<br>", .null]).Elementless :=
    .seq (by simp [Node.Elementless.raw, Node.Elementless.null])
  have hn : node.Elementless := .seq (by simp [hi, Node.text, Node.Elementless.scalar])
  obtain ⟨markup, hm, hr, -⟩ := flatten_agrees_with_rendering node
  exact ⟨hn, markup, hm, hr hn⟩

end Markup
