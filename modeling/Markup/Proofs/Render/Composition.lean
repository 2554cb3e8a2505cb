import Markup.Proofs.Render.Merged

set_option autoImplicit false

/-!
# Trees from parts

The markup of nodes is put together from the markup of each. A node may therefore be replaced by
one that renders alike, as long as both are the same to the element they stand in: a tag only for
that tag, and an attribute map only for one with the same values.
-/

namespace Markup

/-! ## Rendering part by part -/

section Parts

variable (options : RenderOptions)

@[simp] theorem render_nil : render options [] = .ok "" := by
  rw [render_eq, firstFault?_nil, written_nil]

theorem render_cons (node : Node) (rest : List Node) : render options (node :: rest) = do
    let front ← render options [node]
    let back ← render options rest
    return front ++ back := by
  rw [render_eq, render_eq options [node], render_eq options rest, firstFault?_cons,
    ← Option.or_assoc, written_cons, firstFault?_singleton, written_singleton]
  cases node.ownFault?.or (firstFault? node.contents) with
  | some fault => rfl
  | none => cases firstFault? rest <;> rfl

theorem render_append (nodes more : List Node) : render options (nodes ++ more) = do
    let front ← render options nodes
    let back ← render options more
    return front ++ back := by
  induction nodes with
  | nil =>
    rw [List.nil_append, render_nil]
    change _ = (render options more).map ("" ++ ·)
    cases render options more <;> simp [Except.map]
  | cons node rest ih =>
    rw [List.cons_append, render_cons, ih, render_cons options node rest]
    cases render options [node] with
    | error fault => rfl
    | ok front =>
      cases render options rest with
      | error fault => rfl
      | ok middle =>
        cases render options more with
        | error fault => rfl
        | ok back => exact congrArg Except.ok (String.append_assoc ..).symm

theorem render_null : render options [.null] = .ok "" := by
  rw [render_eq, firstFault?_cons, written_cons]
  simp [Node.markup]

theorem render_scalar (value : Scalar) :
    render options [.scalar value] = .ok (options.escape value.text) := by
  rw [render_eq, firstFault?_cons, written_cons]
  simp [Node.markup]

theorem render_raw (markup : String) : render options [.raw markup] = .ok markup := by
  rw [render_eq, firstFault?_cons, written_cons]
  simp [Node.markup]

theorem render_seq (items : List Node) : render options [.seq items] = render options items := by
  have hf : firstFault? [.seq items] = firstFault? items := by
    rw [firstFault?_singleton]
    rfl
  have hw : written options [.seq items] = written options items := by
    rw [written_singleton, Node.markup, Node.closing_seq, ite_self, String.append_empty]
    exact String.empty_append
  rw [render_eq, render_eq, hf, hw]

theorem render_attrs (map : Attrs) :
    render options [.attrs map] = .error (.strayAttributes map.literal) := by
  rw [render_eq_error_iff, firstFault?_cons, Node.ownFault?_attrs, Option.some_or]

end Parts

/-! ## Replacing nodes -/

def Node.asAttrs? : Node → Option Attrs
  | .attrs map => some map
  | _ => none

theorem Agree.map {a b : Except Error String} {f g : String → String} (h : Agree Eq a b)
    (hf : ∀ text, f text = g text) : Agree Eq (a.map f) (b.map g) := by
  cases h with
  | error hk => exact .error hk
  | ok hm => exact .ok (hm ▸ hf _)

theorem Agree.append {a b c d : Except Error String} (hf : Agree Eq a b) (hb : Agree Eq c d) :
    Agree Eq (do return (← a) ++ (← c)) (do return (← b) ++ (← d)) := by
  cases hf with
  | error hk => exact .error hk
  | ok hm =>
    cases hb with
    | error hk => exact .error hk
    | ok hn => exact .ok (congrArg₂ _ hm hn)

namespace Node

/-- Nodes that can take each other's place: they render to the same markup, or fail alike, and an
    element does not tell them apart as its tag or as its attribute map. -/
structure Interchangeable (options : RenderOptions) (a b : Node) : Prop where
  string : a.asString? = b.asString?
  attrs : Option.Rel Attrs.SameValues a.asAttrs? b.asAttrs?
  markup : Agree Eq (render options [a]) (render options [b])

variable {options : RenderOptions} {a b : Node} {as bs : List Node}

theorem Interchangeable.refl (node : Node) : node.Interchangeable options node := by
  refine ⟨rfl, ?_, .refl (fun _ => rfl) _⟩
  cases node.asAttrs? with
  | none => exact .none
  | some map => exact .some fun _ => rfl

theorem render_interchangeable (h : List.Forall₂ (Interchangeable options) as bs) :
    Agree Eq (render options as) (render options bs) := by
  induction h with
  | nil => exact .refl (fun _ => rfl) _
  | @cons a b as bs hn _ ih =>
    rw [render_cons options a as, render_cons options b bs]
    exact hn.markup.append ih

theorem splitAttrs_cons (node : Node) (rest : List Node) : splitAttrs (node :: rest) =
    match node.asAttrs? with
    | some map => (some map, rest)
    | none => (none, node :: rest) := by
  cases node <;> rfl

theorem splitAttrs_cons_eq_none_iff {node : Node} {rest : List Node} :
    (splitAttrs (node :: rest)).1 = none ↔ node.isAttrs = false := by
  cases node <;> simp [splitAttrs, isAttrs]

theorem splitAttrs_of_none {nodes : List Node} (h : (splitAttrs nodes).1 = none) :
    splitAttrs nodes = (none, nodes) := by
  cases nodes with
  | nil => rfl
  | cons node rest =>
    rw [splitAttrs_cons] at h ⊢
    cases hm : node.asAttrs? with
    | none => rfl
    | some map =>
      rw [hm] at h
      cases h

theorem splitAttrs_interchangeable (h : List.Forall₂ (Interchangeable options) as bs) :
    Option.Rel Attrs.SameValues (splitAttrs as).1 (splitAttrs bs).1 ∧
      List.Forall₂ (Interchangeable options) (splitAttrs as).2 (splitAttrs bs).2 := by
  cases h with
  | nil => exact ⟨.none, .nil⟩
  | @cons a b as bs hn ht =>
    rw [splitAttrs_cons, splitAttrs_cons]
    have hr := hn.attrs
    generalize a.asAttrs? = own?, b.asAttrs? = other? at hr
    cases hr with
    | none => exact ⟨.none, .cons hn ht⟩
    | some hm => exact ⟨.some hm, ht⟩

theorem attributeText_eq_of_rel {own? other? : Option Attrs}
    (h : Option.Rel Attrs.SameValues own? other?) (mode : Mode) (tag : Tag) :
    tag.attributeText mode own? = tag.attributeText mode other? := by
  cases h with
  | none => rfl
  | some hm => exact Tag.attributeText_congr mode tag hm

theorem interchangeable_seq (h : List.Forall₂ (Interchangeable options) as bs) :
    (seq as).Interchangeable options (seq bs) := by
  refine ⟨rfl, .none, ?_⟩
  rw [render_seq, render_seq]
  exact render_interchangeable h

theorem render_list_interchangeable (h : List.Forall₂ (Interchangeable options) as bs) :
    Agree Eq (render options [list as]) (render options [list bs]) := by
  cases h with
  | nil => exact .refl (fun _ => rfl) _
  | @cons head other as bs hh ht =>
    obtain ⟨hm, hc⟩ := splitAttrs_interchangeable ht
    have hd : (list (head :: as)).descriptor? = (list (other :: bs)).descriptor? := by
      simp only [descriptor?, tag?, hh.string]
    cases hb : (list (other :: bs)).descriptor? with
    | none =>
      rw [render_malformed options (hd.trans hb), render_malformed options hb]
      exact .error rfl
    | some tag =>
      cases hs : splitAttrs as with
      | mk own? children =>
        cases ho : splitAttrs bs with
        | mk more? others =>
          rw [hs, ho] at hm hc
          have he : children.isEmpty = others.isEmpty := by cases hc <;> rfl
          rw [render_element options (hd.trans hb) hs, render_element options hb ho, he,
            attributeText_eq_of_rel hm]
          split
          · exact .error rfl
          · apply (render_interchangeable hc).map
            intro inside
            rw [Tag.markup, Tag.markup, he]

theorem interchangeable_list (h : List.Forall₂ (Interchangeable options) as bs) :
    (list as).Interchangeable options (list bs) :=
  ⟨rfl, .none, render_list_interchangeable h⟩

end Node

end Markup
