import Markup.Proofs.Render.Composition
import Markup.Proofs.Tree.Equality

set_option autoImplicit false

/-!
# Equal trees

Trees without floating-point numbers that are equal, with attribute maps compared in whatever
order, render to the same markup or fail alike.
-/

namespace Markup

namespace Node

def IsFloatFree (node : Node) : Prop := ∀ value ∈ node.scalars, value.isFloat = false

theorem interchangeable_scalar {options : RenderOptions} {a b : Scalar}
    (hb : (scalar b).IsFloatFree) (h : (a == b) = true) :
    (scalar a).Interchangeable options (scalar b) := by
  rw [Scalar.eq_of_beq (hb b (List.mem_singleton_self b)) h]
  exact .refl _

theorem interchangeable_attrs {options : RenderOptions} {a b : Attrs}
    (ha : (attrs a).IsFloatFree) (h : (a == b) = true) :
    (attrs a).Interchangeable options (attrs b) := by
  refine ⟨rfl, .some (Attrs.sameValues_of_beq ha h), ?_⟩
  rw [render_attrs, render_attrs]
  exact .error rfl

variable (options : RenderOptions)

mutual

theorem interchangeable_of_beq (a : Node) {b : Node} (ha : a.IsFloatFree) (hb : b.IsFloatFree)
    (h : Node.beq a b = true) : a.Interchangeable options b := by
  cases a with
  | null =>
    obtain rfl := null_beq_iff.mp h
    exact .refl _
  | scalar value =>
    obtain ⟨other, rfl, hv⟩ := scalar_beq_iff.mp h
    exact interchangeable_scalar hb hv
  | raw markup =>
    obtain rfl := raw_beq_iff.mp h
    exact .refl _
  | seq items => simp [seq_beq] at h
  | list items =>
    obtain ⟨others, rfl, hi⟩ := list_beq_iff.mp h
    exact interchangeable_list
      (interchangeable_of_beqList items (forall_mem_listScalars.mp ha)
        (forall_mem_listScalars.mp hb) hi)
  | attrs map =>
    obtain ⟨other, rfl, hm⟩ := attrs_beq_iff.mp h
    exact interchangeable_attrs ha hm

theorem interchangeable_of_beqList (as : List Node) {bs : List Node}
    (ha : ∀ node ∈ as, node.IsFloatFree) (hb : ∀ node ∈ bs, node.IsFloatFree)
    (h : Node.beqList as bs = true) : List.Forall₂ (Interchangeable options) as bs := by
  cases as with
  | nil =>
    cases bs with
    | nil => exact .nil
    | cons b bs => cases h
  | cons a as =>
    cases bs with
    | nil => cases h
    | cons b bs =>
      rw [Node.beqList, Bool.and_eq_true] at h
      obtain ⟨han, has⟩ := List.forall_mem_cons.mp ha
      obtain ⟨hbn, hbs⟩ := List.forall_mem_cons.mp hb
      exact .cons (interchangeable_of_beq a han hbn h.1) (interchangeable_of_beqList as has hbs h.2)

end

end Node

/-- Equal trees render equally: to the same markup, or they fail alike. -/
theorem render_of_beq (options : RenderOptions) {a b : Node} (ha : a.IsFloatFree)
    (hb : b.IsFloatFree) (h : (a == b) = true) :
    Agree Eq (render options [a]) (render options [b]) :=
  (Node.interchangeable_of_beq options a ha hb h).markup

/-- Two paragraphs whose attributes came in in different orders. -/
theorem render_of_beq_paragraph :
    let a := Node.elementWith "p.c" (.ofPairs [("title", .str "t"), ("class", .list [.str "d"])])
      [.elementWith "br" (.ofPairs [("id", .str "x"), ("hidden", .bool true)]) []]
    let b := Node.elementWith "p.c" (.ofPairs [("class", .list [.str "d"]), ("title", .str "t")])
      [.elementWith "br" (.ofPairs [("hidden", .bool true), ("id", .str "x")]) []]
    a.IsFloatFree ∧ b.IsFloatFree ∧ (a == b) = true ∧
      Agree Eq (render ⟨.html, true⟩ [a]) (render ⟨.html, true⟩ [b]) := by
  intro a b
  have ha : a.IsFloatFree := by unfold Node.IsFloatFree; decide
  have hb : b.IsFloatFree := by unfold Node.IsFloatFree; decide
  have h : (a == b) = true := by rfl
  exact ⟨ha, hb, h, render_of_beq ⟨.html, true⟩ ha hb h⟩

end Markup
