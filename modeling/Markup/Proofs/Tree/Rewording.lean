import Mathlib.Data.List.Forall2
import Markup.Render.StartTag
import Markup.Tree.Node

set_option autoImplicit false

/-!
# Rewording

Two trees are rewordings of each other if they differ only in the wording of their texts, and, in
attributes, of texts that are not empty on either side. Everything that decides on the shape of
the markup comes out the same for both: which attributes there are, which are left out, and
whether there are classes.
-/

namespace Markup

def Scalar.Reworded (a b : Scalar) : Prop := a = b ∨ ∃ s t, a = .str s ∧ b = .str t

def Scalar.FilledReworded (a b : Scalar) : Prop :=
  a = b ∨ ∃ s t, a = .str s ∧ b = .str t ∧ s ≠ "" ∧ t ≠ ""

inductive AttrValue.Reworded : AttrValue → AttrValue → Prop
  | null : Reworded .null .null
  | scalar {a b : Scalar} (h : a.FilledReworded b) : Reworded (.scalar a) (.scalar b)
  | list {as bs : List Scalar} (h : List.Forall₂ Scalar.FilledReworded as bs) :
    Reworded (.list as) (.list bs)

def Attribute.Reworded (a b : Attribute) : Prop := a.key = b.key ∧ a.value.Reworded b.value

def Attrs.Reworded (a b : Attrs) : Prop := List.Forall₂ Attribute.Reworded a.entries b.entries

/-- Lists of nodes that differ in the wording of texts only. What stands in the place of a tag is
    reworded too, unless it is a tag. -/
inductive Reworded : List Node → List Node → Prop
  | nil : Reworded [] []
  | null {ns ms : List Node} (h : Reworded ns ms) : Reworded (.null :: ns) (.null :: ms)
  | scalar {a b : Scalar} {ns ms : List Node} (hv : a.Reworded b) (h : Reworded ns ms) :
    Reworded (.scalar a :: ns) (.scalar b :: ms)
  | raw (markup : String) {ns ms : List Node} (h : Reworded ns ms) :
    Reworded (.raw markup :: ns) (.raw markup :: ms)
  | seq {is js ns ms : List Node} (hi : Reworded is js) (h : Reworded ns ms) :
    Reworded (.seq is :: ns) (.seq js :: ms)
  | attrs {a b : Attrs} {ns ms : List Node} (hm : a.Reworded b) (h : Reworded ns ms) :
    Reworded (.attrs a :: ns) (.attrs b :: ms)
  | empty {ns ms : List Node} (h : Reworded ns ms) : Reworded (.list [] :: ns) (.list [] :: ms)
  | element {head other : Node} {is js ns ms : List Node} (hh : Reworded [head] [other])
    (ht : head.asString? = other.asString?) (hi : Reworded is js) (h : Reworded ns ms) :
    Reworded (.list (head :: is) :: ns) (.list (other :: js) :: ms)

/-! ## Values -/

namespace Scalar.FilledReworded

variable {a b : Scalar} (h : a.FilledReworded b)
include h

theorem isFalsy_eq : a.isFalsy = b.isFalsy := by
  rcases h with rfl | ⟨s, t, rfl, rfl, hs, ht⟩
  · rfl
  · simp [isFalsy, hs, ht]

theorem text_eq_empty_iff : a.text = "" ↔ b.text = "" := by
  rcases h with rfl | ⟨s, t, rfl, rfl, hs, ht⟩
  · rfl
  · simp [text, hs, ht]

end Scalar.FilledReworded

theorem intercalate_eq_empty_iff {texts : List String} :
    " ".intercalate texts = "" ↔ texts = [] ∨ texts = [""] := by
  match texts with
  | [] => simp
  | [text] => simp
  | first :: second :: rest => simp [String.intercalate_cons_cons]

namespace AttrValue.Reworded

variable {v w : AttrValue} (h : v.Reworded w)
include h

theorem isFalsy_eq : v.isFalsy = w.isFalsy := by
  cases h with
  | null => rfl
  | scalar h => exact h.isFalsy_eq
  | list h => cases h <;> rfl

theorem text_eq_empty_iff : v.text?.getD "" = "" ↔ w.text?.getD "" = "" := by
  cases h with
  | null => rfl
  | scalar h => exact h.text_eq_empty_iff
  | list h =>
    simp only [text?, Option.getD_some, intercalate_eq_empty_iff]
    cases h with
    | nil => rfl
    | cons hv ht => cases ht <;> simp [hv.text_eq_empty_iff]

theorem eq_true_iff : v = .scalar (.bool true) ↔ w = .scalar (.bool true) := by
  cases h with
  | null => rfl
  | scalar h =>
    rcases h with rfl | ⟨s, t, rfl, rfl, -⟩
    · rfl
    · simp
  | list h => simp

end AttrValue.Reworded

/-! ## Maps -/

namespace Attrs.Reworded

variable {a b : Attrs} (h : a.Reworded b)
include h

theorem get?_rel (key : String) : Option.Rel AttrValue.Reworded (a.get? key) (b.get? key) := by
  unfold Attrs.get?
  have hr : List.Forall₂ Attribute.Reworded a.entries b.entries := h
  generalize a.entries = as, b.entries = bs at hr
  induction hr with
  | nil => exact .none
  | @cons x y xs ys he ht ih =>
    obtain ⟨hk, hv⟩ := he
    rw [List.find?_cons, List.find?_cons, hk]
    cases y.key == key with
    | true => exact .some hv
    | false => exact ih

theorem keys_eq : a.keys = b.keys := by
  have hr : List.Forall₂ Attribute.Reworded a.entries b.entries := h
  unfold Attrs.keys
  generalize a.entries = as, b.entries = bs at hr
  induction hr with
  | nil => rfl
  | cons he _ ih => rw [List.map_cons, List.map_cons, he.1, ih]

theorem mapClasses_eq_empty_iff : Tag.mapClasses a = "" ↔ Tag.mapClasses b = "" := by
  have hr := h.get?_rel "class"
  unfold Tag.mapClasses
  generalize a.get? "class" = v, b.get? "class" = w at hr
  cases hr with
  | none => rfl
  | @some v w hv =>
    simp only [hv.isFalsy_eq]
    cases w.isFalsy with
    | true => rfl
    | false => exact hv.text_eq_empty_iff

end Attrs.Reworded

end Markup
