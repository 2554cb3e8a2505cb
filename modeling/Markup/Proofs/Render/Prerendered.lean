import Markup.Proofs.Render.Composition

set_option autoImplicit false

/-!
# Markup rendered beforehand

Nodes may be rendered on their own, and the markup put into a larger tree. It makes no difference
to the larger tree, wherever the markup stands in it.
-/

namespace Markup

/-- A place in some nodes: among them, or further inside a sequence or an element among them. -/
inductive Place where
  | here (before after : List Node)
  | inSeq (before : List Node) (inner : Place) (after : List Node)
  | inList (before : List Node) (inner : Place) (after : List Node)

def Place.fill (node : Node) : Place → List Node
  | here before after => before ++ node :: after
  | inSeq before inner after => before ++ .seq (inner.fill node) :: after
  | inList before inner after => before ++ .list (inner.fill node) :: after

/-- A relation between nodes that passes from the nodes inside to those around them. -/
structure Congruence (Related : Node → Node → Prop) : Prop where
  refl (node : Node) : Related node node
  seq {as bs : List Node} (h : List.Forall₂ Related as bs) : Related (.seq as) (.seq bs)
  list {as bs : List Node} (h : List.Forall₂ Related as bs) : Related (.list as) (.list bs)

namespace Congruence

variable {Related : Node → Node → Prop} (hr : Congruence Related) {a b : Node}
include hr

theorem around (h : Related a b) (before after : List Node) :
    List.Forall₂ Related (before ++ a :: after) (before ++ b :: after) := by
  have same (nodes : List Node) : List.Forall₂ Related nodes nodes :=
    List.forall₂_same.mpr fun node _ => hr.refl node
  exact List.rel_append (same before) (.cons h (same after))

theorem fill (h : Related a b) (place : Place) :
    List.Forall₂ Related (place.fill a) (place.fill b) := by
  induction place with
  | here before after => exact hr.around h before after
  | inSeq before inner after ih => exact hr.around (hr.seq ih) before after
  | inList before inner after ih => exact hr.around (hr.list ih) before after

end Congruence

namespace Node

variable {options : RenderOptions}

theorem congruence_interchangeable : Congruence (Interchangeable options) :=
  ⟨.refl, interchangeable_seq, interchangeable_list⟩

theorem interchangeable_raw_seq {nodes : List Node} {markup : String}
    (h : render options nodes = .ok markup) :
    (raw markup).Interchangeable options (seq nodes) := by
  refine ⟨rfl, .none, ?_⟩
  rw [render_raw, render_seq, h]
  exact .ok rfl

end Node

theorem prerender_eq_ok_iff {options : RenderOptions} {nodes : List Node} {node : Node} :
    prerender options nodes = .ok node ↔
      ∃ markup, render options nodes = .ok markup ∧ node = .raw markup := by
  unfold prerender
  cases render options nodes <;> simp [Except.map, eq_comm]

/-- Rendering nodes beforehand is transparent: their markup renders to itself under any options, and
    stands for them in every place of every tree. -/
theorem prerender_transparent (options : RenderOptions) {nodes : List Node} {node : Node}
    (h : prerender options nodes = .ok node) :
    (∃ markup, render options nodes = .ok markup ∧
        ∀ other : RenderOptions, render other [node] = .ok markup) ∧
      ∀ place : Place, Agree Eq (render options (place.fill node))
        (render options (place.fill (.seq nodes))) := by
  obtain ⟨markup, hr, rfl⟩ := prerender_eq_ok_iff.mp h
  constructor
  · exact ⟨markup, hr, fun other => render_raw other markup⟩
  · intro place
    have hn := Node.interchangeable_raw_seq hr
    exact Node.render_interchangeable (Node.congruence_interchangeable.fill hn place)

theorem prerender_transparent_ampersand :
    let nodes := [Node.text "a & b", .seq [.raw "<br>", .null]]
    let node := Node.raw "a &amp; b<br>"
    let place := Place.inSeq [] (.inList [] (.here [.text "p", .attrs .empty] [.text "c"]) []) []
    prerender ⟨.html, true⟩ nodes = .ok node ∧
      (∃ markup, render ⟨.html, true⟩ nodes = .ok markup ∧
        ∀ other : RenderOptions, render other [node] = .ok markup) ∧
      Agree Eq (render ⟨.html, true⟩ (place.fill node))
        (render ⟨.html, true⟩ (place.fill (.seq nodes))) := by
  intro nodes node place
  have h : prerender ⟨.html, true⟩ nodes = .ok node := by rfl
  have ht := prerender_transparent ⟨.html, true⟩ h
  exact ⟨h, ht.1, ht.2 place⟩

end Markup
