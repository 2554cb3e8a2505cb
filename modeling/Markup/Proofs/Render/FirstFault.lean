import Markup.Proofs.Render.Writing

set_option autoImplicit false

/-!
# Faults

A tree renders exactly if no node that rendering reaches is at fault. If some are, the error is
that of the first one in preorder. The options have no part in it.
-/

namespace Markup

/-- The faults of single nodes, with the errors that report them. -/
inductive Fault : Node → Error → Prop
  | empty : Fault (.list []) (.malformedElement (Node.list []).literal)
  | untagged (head : Node) (rest : List Node) (h : ∀ text, head ≠ Node.text text) :
    Fault (.list (head :: rest)) (.malformedElement (Node.list (head :: rest)).literal)
  | unreadable (text : String) (rest : List Node) (h : Tag.parse? text = none) :
    Fault (.list (Node.text text :: rest))
      (.malformedElement (Node.list (Node.text text :: rest)).literal)
  | voidWithChildren (text : String) (rest : List Node) (tag : Tag) (h : Tag.parse? text = some tag)
    (hv : tag.name ∈ Tag.voidNames) (hc : (Node.splitAttrs rest).2 ≠ []) :
    Fault (.list (Node.text text :: rest)) (.voidTagWithChildren tag.name)
  | stray (map : Attrs) : Fault (.attrs map) (.strayAttributes map.literal)

theorem Tag.isVoidName_iff {name : String} : Tag.isVoidName name = true ↔ name ∈ Tag.voidNames := by
  simp [Tag.isVoidName]

theorem Fault.ownFault? {node : Node} {error : Error} (h : Fault node error) :
    node.ownFault? = some error := by
  cases h with
  | empty => rfl
  | untagged head rest h =>
    apply Node.ownFault?_malformed
    rw [Node.descriptor?, Node.tag?, Node.asString?_eq_none_iff.mpr h]
    rfl
  | unreadable text rest h => exact Node.ownFault?_malformed h
  | voidWithChildren text rest tag h hv hc =>
    have hd : (Node.list (Node.text text :: rest)).descriptor? = some tag := h
    rw [Node.ownFault?_element hd, Tag.isVoidName_iff.mpr hv, Node.contents_list]
    simpa using hc
  | stray map => rfl

theorem fault_malformed {items : List Node} (h : (Node.list items).descriptor? = none) :
    Fault (.list items) (.malformedElement (Node.list items).literal) := by
  cases items with
  | nil => exact .empty
  | cons head rest =>
    cases hs : head.asString? with
    | none => exact .untagged head rest (Node.asString?_eq_none_iff.mp hs)
    | some text =>
      obtain rfl := Node.asString?_eq_some_iff.mp hs
      exact .unreadable text rest h

theorem fault_of_ownFault? {node : Node} {error : Error} (h : node.ownFault? = some error) :
    Fault node error := by
  cases node with
  | null | scalar | raw | seq => cases h
  | attrs map =>
    cases h
    exact .stray map
  | list items =>
    cases hd : (Node.list items).descriptor? with
    | none =>
      rw [Node.ownFault?_malformed hd] at h
      cases h
      exact fault_malformed hd
    | some tag =>
      rw [Node.ownFault?_element hd] at h
      obtain ⟨text, rest, rfl, ht⟩ := Node.descriptor?_eq_some_iff.mp hd
      obtain ⟨hc, he⟩ := Option.ite_none_right_eq_some.mp h
      rw [Bool.and_eq_true, Tag.isVoidName_iff, Node.contents_list] at hc
      cases he
      exact .voidWithChildren text rest tag ht hc.1 (by simpa using hc.2)

theorem fault_iff {node : Node} {error : Error} :
    Fault node error ↔ node.ownFault? = some error :=
  ⟨Fault.ownFault?, fault_of_ownFault?⟩

theorem ownFault?_eq_none_iff {node : Node} :
    node.ownFault? = none ↔ ∀ error, ¬ Fault node error := by
  rw [Option.eq_none_iff_forall_ne_some]
  exact forall_congr' fun error => not_congr fault_iff.symm

theorem firstFault?_eq_none_iff {nodes : List Node} :
    firstFault? nodes = none ↔ ∀ node ∈ preorder nodes, ∀ error, ¬ Fault node error := by
  simp only [firstFault?, List.findSome?_eq_none_iff, ownFault?_eq_none_iff]

theorem firstFault?_eq_some_iff {nodes : List Node} {error : Error} :
    firstFault? nodes = some error ↔
      ∃ before node after, preorder nodes = before ++ node :: after ∧
        (∀ earlier ∈ before, ∀ missed, ¬ Fault earlier missed) ∧ Fault node error := by
  simp only [firstFault?, List.findSome?_eq_some_iff, ownFault?_eq_none_iff, ← fault_iff]
  constructor
  · rintro ⟨before, node, after, hp, hn, hb⟩
    exact ⟨before, node, after, hp, hb, hn⟩
  · rintro ⟨before, node, after, hp, hb, hn⟩
    exact ⟨before, node, after, hp, hn, hb⟩

/-- Rendering fails exactly if a node is at fault, with the error of the first one, and the
    options have no say in it. -/
theorem render_error_iff_first_fault (options other : RenderOptions) (nodes : List Node) :
    ((∃ markup more, render options nodes = .ok markup ∧ render other nodes = .ok more) ∨
        ∃ error, render options nodes = .error error ∧ render other nodes = .error error) ∧
      ((∃ markup, render options nodes = .ok markup) ↔
        ∀ node ∈ preorder nodes, ∀ error, ¬ Fault node error) ∧
      ∀ error, render options nodes = .error error ↔
        ∃ before node after, preorder nodes = before ++ node :: after ∧
          (∀ earlier ∈ before, ∀ missed, ¬ Fault earlier missed) ∧ Fault node error := by
  refine ⟨?_, ?_, fun error => ?_⟩
  · cases hf : firstFault? nodes with
    | none =>
      obtain ⟨markup, hm⟩ := (render_eq_ok_iff options).mpr hf
      obtain ⟨more, hn⟩ := (render_eq_ok_iff other).mpr hf
      exact Or.inl ⟨markup, more, hm, hn⟩
    | some error =>
      right
      exact ⟨error, (render_eq_error_iff options).mpr hf, (render_eq_error_iff other).mpr hf⟩
  · rw [render_eq_ok_iff, firstFault?_eq_none_iff]
  · rw [render_eq_error_iff, firstFault?_eq_some_iff]

end Markup
