import Markup.Proofs.Render.Attributes
import Markup.Proofs.Render.Escaping
import Markup.Proofs.Render.Writing
import Markup.Proofs.Tree.Rewording

set_option autoImplicit false

/-!
# The skeleton of markup

The angle brackets and quotes of a text are what a reader of markup goes by. Escaped text has
none, so two trees that are rewordings of each other render to markup with the same ones, or
stop at faults of one kind.
-/

namespace Markup

def skeleton (text : String) : List Char := text.toList.filter isStructural

theorem skeleton_append (a b : String) : skeleton (a ++ b) = skeleton a ++ skeleton b := by
  simp only [skeleton, String.toList_append, List.filter_append]

@[simp] theorem skeleton_space : skeleton " " = [] := rfl

theorem skeleton_join (texts : List String) :
    skeleton (String.join texts) = texts.flatMap skeleton := by
  rw [skeleton, String.toList_join, List.filter_flatMap]
  rfl

theorem skeleton_escape (mode : Mode) (text : String) : skeleton (mode.escape text) = [] := by
  rw [skeleton, List.filter_eq_nil_iff]
  intro c hc
  rw [isStructural_of_mem_escape hc]
  exact Bool.false_ne_true

theorem skeleton_quotedAttribute (mode : Mode) (key text : String) :
    skeleton (mode.quotedAttribute key text) = skeleton key ++ ['"', '"'] := by
  simp only [Mode.quotedAttribute, skeleton_append, skeleton_escape, List.append_nil,
    List.append_assoc]
  rfl

/-! ## Start tags -/

section Attributes

variable (mode : Mode) (tag : Tag) {a b : Attrs} {v w : AttrValue}

theorem skeleton_shown? (key : String) (h : v.Reworded w) :
    v.shown?.map (fun value => skeleton (value.markup mode key)) =
      w.shown?.map fun value => skeleton (value.markup mode key) := by
  by_cases hv : v = .scalar (.bool true)
  · rw [hv, h.eq_true_iff.mp hv]
  · have hw : w ≠ .scalar (.bool true) := fun hw => hv (h.eq_true_iff.mpr hw)
    rw [AttrValue.shown?_eq hv, AttrValue.shown?_eq hw, h.isFalsy_eq]
    cases w.isFalsy with
    | true => rfl
    | false =>
      -- the text only shows in between the quotes, which are there for both or for neither
      rw [if_neg Bool.false_ne_true, if_neg Bool.false_ne_true, Option.map_map, Option.map_map]
      simp only [Function.comp_def, Shown.markup, skeleton_quotedAttribute]
      cases h <;> rfl

theorem skeleton_tag_shown? (key : String) (h : a.Reworded b) :
    (tag.shown? a key).map (fun value => skeleton (value.markup mode key)) =
      (tag.shown? b key).map fun value => skeleton (value.markup mode key) := by
  have he : tag.allClasses a = "" ↔ tag.allClasses b = "" := by
    simp only [Tag.allClasses_eq_empty_iff, h.mapClasses_eq_empty_iff]
  have hid : a.get? "id" = none ↔ b.get? "id" = none := by
    have hr := h.get?_rel "id"
    generalize a.get? "id" = v?, b.get? "id" = w? at hr
    cases hr <;> simp
  unfold Tag.shown?
  simp only [he, hid]
  by_cases hc : key = "class"
  · by_cases hb : tag.allClasses b = "" <;>
      simp [hc, hb, Shown.markup, skeleton_quotedAttribute]
  · by_cases hi : key = "id" ∧ b.get? "id" = none
    · rw [if_neg hc, if_neg hc, if_pos hi, if_pos hi]
    · rw [if_neg hc, if_neg hc, if_neg hi, if_neg hi]
      have hr := h.get?_rel key
      generalize a.get? key = v?, b.get? key = w? at hr
      cases hr with
      | none => rfl
      | some hv => exact skeleton_shown? mode key hv

theorem skeleton_attributeText {a? b? : Option Attrs} (h : Option.Rel Attrs.Reworded a? b?) :
    skeleton (tag.attributeText mode a?) = skeleton (tag.attributeText mode b?) := by
  cases h with
  | none => rfl
  | @some a b h =>
    have hk : a.keys = b.keys := Attrs.Reworded.keys_eq h
    have hs := map_lookups_congr (f := fun key value => skeleton (Shown.markup mode key value))
      (skeleton_tag_shown? mode tag · h) (sortedKeys ("class" :: "id" :: b.keys))
    rw [Tag.attributeText_eq, Tag.attributeText_eq, skeleton_join, skeleton_join,
      List.flatMap_map, List.flatMap_map]
    simp only [skeleton_append, skeleton_space, List.nil_append, Option.getD_some]
    rw [List.flatMap_def, List.flatMap_def, Tag.shown, Tag.shown, hk]
    exact congrArg List.flatten hs

end Attributes

/-! ## Trees -/

theorem Reworded.splitAttrs {ns ms : List Node} (h : Reworded ns ms) :
    Option.Rel Attrs.Reworded (Node.splitAttrs ns).1 (Node.splitAttrs ms).1 ∧
      Reworded (Node.splitAttrs ns).2 (Node.splitAttrs ms).2 := by
  cases h with
  | attrs hm h => exact ⟨.some hm, h⟩
  | nil => exact ⟨.none, .nil⟩
  | null h => exact ⟨.none, .null h⟩
  | scalar hv h => exact ⟨.none, .scalar hv h⟩
  | raw markup h => exact ⟨.none, .raw markup h⟩
  | seq hi h => exact ⟨.none, .seq hi h⟩
  | empty h => exact ⟨.none, .empty h⟩
  | element hh ht hi h => exact ⟨.none, .element hh ht hi h⟩

theorem Reworded.isEmpty_eq {ns ms : List Node} (h : Reworded ns ms) : ns.isEmpty = ms.isEmpty := by
  cases h <;> rfl

def Error.kind (error : Error) : Nat := error.ctorIdx

/-- Nodes whose own faults are of one kind and which add the same skeleton. -/
structure Node.Alike (options : RenderOptions) (a b : Node) : Prop where
  fault : a.ownFault?.map Error.kind = b.ownFault?.map Error.kind
  opening : skeleton (a.opening options) = skeleton (b.opening options)
  closing : skeleton a.closing = skeleton b.closing

structure Alike (options : RenderOptions) (as bs : List Node) : Prop where
  fault : (firstFault? as).map Error.kind = (firstFault? bs).map Error.kind
  markup : skeleton (written options as) = skeleton (written options bs)

section Alike

variable {options : RenderOptions}

theorem isSome_eq_of_map_kind_eq {a? b? : Option Error}
    (h : a?.map Error.kind = b?.map Error.kind) : a?.isSome = b?.isSome := by
  rw [← Option.isSome_map (f := Error.kind), h, Option.isSome_map]

theorem Node.Alike.markup {a b : Node} (own : a.Alike options b)
    (inner : Markup.Alike options a.contents b.contents) :
    skeleton (a.markup options) = skeleton (b.markup options) := by
  rw [Node.markup, Node.markup, isSome_eq_of_map_kind_eq own.fault,
    isSome_eq_of_map_kind_eq inner.fault]
  split
  · rfl
  · simp only [skeleton_append, own.opening, inner.markup]
    split
    · rfl
    · rw [own.closing]

theorem alike_cons {a b : Node} {as bs : List Node} (own : a.Alike options b)
    (inner : Alike options a.contents b.contents) (outer : Alike options as bs) :
    Alike options (a :: as) (b :: bs) := by
  have hf : (a.ownFault?.or (firstFault? a.contents)).map Error.kind =
      (b.ownFault?.or (firstFault? b.contents)).map Error.kind := by
    rw [Option.map_or, Option.map_or, own.fault, inner.fault]
  constructor
  · rw [firstFault?_cons, firstFault?_cons, ← Option.or_assoc, ← Option.or_assoc, Option.map_or,
      hf, outer.fault, ← Option.map_or]
  · rw [written_cons, written_cons, isSome_eq_of_map_kind_eq hf, skeleton_append, skeleton_append,
      own.markup inner]
    split
    · rfl
    · rw [outer.markup]

theorem alike_element {head other : Node} {is js : List Node}
    (ht : head.asString? = other.asString?) (hi : Reworded is js) :
    (Node.list (head :: is)).Alike options (.list (other :: js)) := by
  obtain ⟨hm, hc⟩ := hi.splitAttrs
  rw [← Node.attrs?_list head, ← Node.attrs?_list other] at hm
  have he := hc.isEmpty_eq
  rw [← Node.contents_list head, ← Node.contents_list other] at he
  have hd : (Node.list (head :: is)).descriptor? = (Node.list (other :: js)).descriptor? := by
    simp only [Node.descriptor?, Node.tag?, ht]
  cases hb : (Node.list (other :: js)).descriptor? with
  | none =>
    rw [hb] at hd
    constructor
    · rw [Node.ownFault?_malformed hd, Node.ownFault?_malformed hb]
      rfl
    · simp only [Node.opening, hd, hb]
    · simp only [Node.closing, hd, hb]
  | some tag =>
    rw [hb] at hd
    constructor
    · rw [Node.ownFault?_element hd, Node.ownFault?_element hb, he]
    · rw [Node.opening_element options hd, Node.opening_element options hb, he]
      simp only [skeleton_append, skeleton_attributeText options.mode tag hm]
    · rw [Node.closing_element hd, Node.closing_element hb, he]

theorem alike_of_reworded (he : options.escapeStrings = true) {nodes others : List Node}
    (h : Reworded nodes others) : Alike options nodes others := by
  -- along the walk and not along `h`, since what is alike are the contents behind the map
  induction nodes using preorder.induct generalizing others with
  | case1 =>
    cases h
    exact ⟨rfl, rfl⟩
  | case2 node rest inner outer =>
    cases h with
    | null h => exact alike_cons ⟨rfl, rfl, rfl⟩ (inner .nil) (outer h)
    | @scalar a b ns ms hv h =>
      refine alike_cons ⟨rfl, ?_, rfl⟩ (inner .nil) (outer h)
      rw [Node.opening_scalar, Node.opening_scalar, RenderOptions.escape, RenderOptions.escape,
        if_pos he, if_pos he, skeleton_escape, skeleton_escape]
    | raw markup h => exact alike_cons ⟨rfl, rfl, rfl⟩ (inner .nil) (outer h)
    | seq hi h => exact alike_cons ⟨rfl, rfl, rfl⟩ (inner hi) (outer h)
    | attrs hm h => exact alike_cons ⟨rfl, rfl, rfl⟩ (inner .nil) (outer h)
    | empty h => exact alike_cons ⟨rfl, rfl, rfl⟩ (inner .nil) (outer h)
    | element hh ht hi h => exact alike_cons (alike_element ht hi) (inner hi.splitAttrs.2) (outer h)

end Alike

/-! ## Renderings -/

inductive Agree (Related : String → String → Prop) :
    Except Error String → Except Error String → Prop
  | ok {a b : String} (h : Related a b) : Agree Related (.ok a) (.ok b)
  | error {a b : Error} (h : a.kind = b.kind) : Agree Related (.error a) (.error b)

/-- The wording of texts cannot change the structure of the markup: rewordings fail alike, or
    render to the same brackets and quotes. -/
theorem render_skeleton_reworded (options : RenderOptions) (he : options.escapeStrings = true)
    {nodes others : List Node} (h : Reworded nodes others) :
    Agree (fun a b => skeleton a = skeleton b) (render options nodes) (render options others) := by
  have ha := alike_of_reworded he h
  have hf := ha.fault
  rw [render_eq, render_eq]
  cases hn : firstFault? nodes with
  | none =>
    cases ho : firstFault? others with
    | none => exact .ok ha.markup
    | some fault => simp [hn, ho] at hf
  | some fault =>
    cases ho : firstFault? others with
    | none => simp [hn, ho] at hf
    | some other => exact .error (by simpa [hn, ho] using hf)

/-- A title and a text that try to break out of a paragraph. -/
theorem skeleton_of_injected_script :
    let plain := [Node.elementWith "p" (.ofPairs [("title", .str "a")]) [.text "b"]]
    let hostile := [Node.elementWith "p" (.ofPairs [("title", .str "\" onclick=\"x()")])
      [.text "<script>x()</script>"]]
    Reworded plain hostile ∧
      Agree (fun a b => skeleton a = skeleton b) (render ⟨.html, true⟩ plain)
        (render ⟨.html, true⟩ hostile) := by
  intro plain hostile
  have title : AttrValue.Reworded (.str "a") (.str "\" onclick=\"x()") :=
    .scalar (.inr ⟨_, _, rfl, rfl, by decide, by decide⟩)
  have h : Reworded plain hostile :=
    .element (.scalar (.inl rfl) .nil) rfl
      (.attrs (.cons ⟨rfl, title⟩ .nil) (.scalar (.inr ⟨_, _, rfl, rfl⟩) .nil)) .nil
  exact ⟨h, render_skeleton_reworded ⟨.html, true⟩ rfl h⟩

end Markup
