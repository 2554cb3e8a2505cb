import Markup.Proofs.Render.Traversal

set_option autoImplicit false

/-!
# What the writer does

A writer adds a text to what is there, the same text whatever is there, and may stop at a fault.
For the nodes of a tree this is their text and their first fault, and so the tree renders to the
one or ends in the other.
-/

namespace Markup

/-- A writer that adds a text whatever is there, and then stops at a fault if there is one. -/
def Writes (writer : Writer) (text : String) (fault? : Option Error) : Prop :=
  ∀ out, writer.run out =
    match fault? with
    | none => .ok () (out ++ text)
    | some fault => .error fault (out ++ text)

namespace Writes

variable {first second : Writer} {text more : String} {fault : Error} {fault? next? : Option Error}

theorem unique (hf : Writes first text fault?) (hs : Writes first more next?) :
    text = more ∧ fault? = next? := by
  have h := (hf "").symm.trans (hs "")
  simp only [String.empty_append] at h
  cases fault? <;> cases next? <;> cases h <;> exact ⟨rfl, rfl⟩

theorem emit (text : String) : Writes (emit text) text none := fun _ => rfl

theorem done : Writes (pure ()) "" none := by
  intro out
  rw [String.append_empty]
  rfl

theorem fail (fault : Error) : Writes (throw fault) "" (some fault) := by
  intro out
  rw [String.append_empty]
  rfl

theorem run_then (hf : Writes first text none) (hs : Writes second more next?) :
    Writes (do first; second) (text ++ more) next? := by
  intro out
  have h₁ : first out = .ok () (out ++ text) := hf out
  have h₂ := hs (out ++ text)
  simp only [EStateM.run, String.append_assoc] at h₂
  simp only [EStateM.run, bind, EStateM.bind, h₁, h₂]

theorem stop_then (hf : Writes first text (some fault)) :
    Writes (do first; second) text (some fault) := by
  intro out
  have h₁ : first out = .error fault (out ++ text) := hf out
  simp only [EStateM.run, bind, EStateM.bind, h₁]

theorem bind (hf : Writes first text fault?) (hs : Writes second more next?) :
    Writes (do first; second) (text ++ if fault?.isSome then "" else more) (fault?.or next?) := by
  cases fault? with
  | none => exact hf.run_then hs
  | some fault =>
    rw [Option.isSome_some, if_pos rfl, String.append_empty]
    exact hf.stop_then

end Writes

theorem writeNode_list (options : RenderOptions) (items : List Node) :
    writeNode options (.list items) =
      match (Node.list items).descriptor? with
      | none => throw (.malformedElement (Node.list items).literal)
      | some tag =>
        writeElement options.mode tag (Node.list items).attrs? (!(Node.list items).contents.isEmpty)
          (writeNodes options (Node.list items).contents) := by
  cases items with
  | nil => rfl
  | cons head rest =>
    rw [writeNode]
    change _ = match head.asString?.bind Tag.parse? with | none => _ | some tag => _
    cases head.asString?.bind Tag.parse? with
    | none => rfl
    | some tag =>
      cases rest with
      | nil => rfl
      | cons first children => cases first <;> rfl

section Element

variable (mode : Mode) (tag : Tag) (map? : Option Attrs) {body : Writer} {text : String}
  {fault? : Option Error}

theorem writes_childless : Writes (writeElement mode tag map? false body)
    ("<" ++ tag.name ++ tag.attributeText mode map? ++ mode.childlessEnd tag.name) none := by
  refine (Writes.emit _).run_then ?_
  unfold Mode.childlessEnd
  rw [if_neg Bool.false_ne_true]
  split
  · exact Writes.emit _
  · split <;> exact Writes.emit _

theorem writes_void (hv : Tag.isVoidName tag.name = true) :
    Writes (writeElement mode tag map? true body) "" (some (.voidTagWithChildren tag.name)) := by
  unfold writeElement
  rw [hv]
  exact (Writes.fail _).stop_then

theorem writes_element (hv : Tag.isVoidName tag.name = false) (hb : Writes body text fault?) :
    Writes (writeElement mode tag map? true body)
      ("<" ++ tag.name ++ tag.attributeText mode map? ++
        (">" ++ (text ++ if fault?.isSome then "" else "</" ++ tag.name ++ ">"))) fault? := by
  unfold writeElement
  rw [hv]
  refine (Writes.emit _).run_then ((Writes.emit _).run_then ?_)
  have h := hb.bind (Writes.emit ("</" ++ tag.name ++ ">"))
  rwa [Option.or_none] at h

end Element

theorem writes_list {options : RenderOptions} {items : List Node}
    (h : Writes (writeNodes options (Node.list items).contents)
      (written options (Node.list items).contents) (firstFault? (Node.list items).contents)) :
    Writes (writeNode options (.list items)) ((Node.list items).markup options)
      ((Node.list items).ownFault?.or (firstFault? (Node.list items).contents)) := by
  rw [writeNode_list]
  unfold Node.markup
  cases hd : (Node.list items).descriptor? with
  | none =>
    rw [Node.ownFault?_malformed hd]
    exact Writes.fail _
  | some tag =>
    rw [Node.ownFault?_element hd, Node.opening_element options hd, Node.closing_element hd]
    generalize (Node.list items).contents = children at h ⊢
    cases children with
    | nil =>
      rw [firstFault?_nil, written]
      simpa using writes_childless options.mode tag (Node.list items).attrs?
    | cons child more =>
      cases hv : Tag.isVoidName tag.name with
      | true => exact writes_void _ tag _ hv
      | false =>
        have he := writes_element options.mode tag (Node.list items).attrs? hv h
        simpa [String.append_assoc] using he

theorem writes_node {options : RenderOptions} {node : Node}
    (h : Writes (writeNodes options node.contents) (written options node.contents)
      (firstFault? node.contents)) :
    Writes (writeNode options node) (node.markup options)
      (node.ownFault?.or (firstFault? node.contents)) := by
  cases node with
  | null =>
    rw [writeNode]
    simpa [Node.markup] using Writes.done
  | scalar value =>
    rw [writeNode]
    simpa [Node.markup] using Writes.emit (options.escape value.text)
  | raw markup =>
    rw [writeNode]
    simpa [Node.markup] using Writes.emit markup
  | attrs map => exact Writes.fail _
  | seq items =>
    have ht : (Node.seq items).markup options = written options items := by
      rw [Node.markup, Node.closing_seq, ite_self]
      simp
    rw [writeNode, ht]
    exact h
  | list items => exact writes_list h

theorem writes_nodes (options : RenderOptions) (nodes : List Node) :
    Writes (writeNodes options nodes) (written options nodes) (firstFault? nodes) := by
  induction nodes using preorder.induct with
  | case1 =>
    rw [written_nil, firstFault?_nil]
    exact Writes.done
  | case2 node rest inner outer =>
    rw [writeNodes, written_cons, firstFault?_cons, ← Option.or_assoc]
    exact (writes_node inner).bind outer

theorem writes_singleton (options : RenderOptions) (node : Node) :
    Writes (writeNode options node) (written options [node]) (firstFault? [node]) := by
  rw [written_singleton, firstFault?_singleton]
  exact writes_node (writes_nodes options node.contents)

theorem render_eq (options : RenderOptions) (nodes : List Node) :
    render options nodes =
      match firstFault? nodes with
      | none => .ok (written options nodes)
      | some fault => .error fault := by
  have h := writes_nodes options nodes ""
  unfold render
  rw [h]
  cases firstFault? nodes with
  | none => simp
  | some fault => rfl

theorem render_eq_ok_iff (options : RenderOptions) {nodes : List Node} :
    (∃ markup, render options nodes = .ok markup) ↔ firstFault? nodes = none := by
  rw [render_eq]
  cases firstFault? nodes <;> simp

theorem render_eq_error_iff (options : RenderOptions) {nodes : List Node} {error : Error} :
    render options nodes = .error error ↔ firstFault? nodes = some error := by
  rw [render_eq]
  cases firstFault? nodes <;> simp

end Markup
