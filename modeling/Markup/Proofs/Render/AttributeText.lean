import Markup.Proofs.Render.Attributes
import Markup.Proofs.Text.ByteOrder

set_option autoImplicit false

/-!
# The text of the attributes

The attribute text of a start tag is a list of fragments, each after a space. Its keys ascend byte
by byte, and what is written for a key is settled by the tag and by what the map has for that key
and for `class`, so the order of the map does not show.
-/

namespace Markup

/-- How a value that is not left out is written for a key of the map. -/
def AttrValue.written (mode : Mode) (key : String) : AttrValue → String
  | .scalar (.bool true) =>
    match mode with
    | .html | .sgml => key
    | .xml | .xhtml => key ++ "=\"" ++ key ++ "\""
  | .scalar value => key ++ "=\"" ++ mode.escape value.text ++ "\""
  | .list values =>
    key ++ "=\"" ++ mode.escape (" ".intercalate (values.map Scalar.text)) ++ "\""
  | .null => ""

def Attrs.classText (map : Attrs) : String :=
  match map.get? "class" with
  | some (.scalar value) => if value.isFalsy then "" else value.text
  | some (.list values) => " ".intercalate (values.map Scalar.text)
  | _ => ""

namespace Tag

/-- The fragments of a start tag by their keys. -/
structure FragmentsOf (mode : Mode) (tag : Tag) (map : Attrs)
    (fragments : List (String × String)) : Prop where
  ascending : fragments.Pairwise fun a b => Text.bytes a.1 < Text.bytes b.1
  ofMap : ∀ key fragment, key ≠ "class" → key ≠ "id" →
    ((key, fragment) ∈ fragments ↔ ∃ value, map.get? key = some value ∧
      value.isFalsy = false ∧ fragment = value.written mode key)
  idOfMap : ∀ value fragment, map.get? "id" = some value →
    (("id", fragment) ∈ fragments ↔ value.isFalsy = false ∧ fragment = value.written mode "id")
  idOfTag : ∀ fragment, map.get? "id" = none →
    (("id", fragment) ∈ fragments ↔
      ∃ id, tag.id? = some id ∧ fragment = "id=\"" ++ mode.escape id ++ "\"")
  classes : ∀ fragment, ("class", fragment) ∈ fragments ↔
    ¬ (tag.classes = "" ∧ map.classText = "") ∧
      fragment = "class=\"" ++ mode.escape (joinClasses tag.classes map.classText) ++ "\""

end Tag

theorem attribute?_eq_some_iff {mode : Mode} {key fragment : String} {value : AttrValue} :
    mode.attribute? key value = some fragment ↔
      value.isFalsy = false ∧ fragment = value.written mode key := by
  by_cases ht : value = .scalar (.bool true)
  · subst ht
    cases mode <;> simp [Mode.attribute?, Mode.presentAttribute, Mode.isXml, AttrValue.written,
      AttrValue.isFalsy, Scalar.isFalsy, eq_comm]
  · rw [attribute?_eq ht]
    cases hf : value.isFalsy with
    | true => simp
    | false =>
      have hw : value.text?.map (mode.quotedAttribute key) = some (value.written mode key) := by
        cases value with
        | null => cases hf
        | list values => rfl
        | scalar value =>
          cases value with
          | bool content =>
            cases content with
            | true => exact absurd rfl ht
            | false => cases hf
          | str | int | float | fraction | uri => rfl
      simp [hw, eq_comm]

theorem mapClasses_eq_classText (map : Attrs) : Tag.mapClasses map = map.classText := by
  unfold Tag.mapClasses Attrs.classText
  cases map.get? "class" with
  | none => rfl
  | some value =>
    cases value with
    | null => rfl
    | scalar value => rfl
    | list values => cases values <;> rfl

namespace Tag

def sortedFragments (mode : Mode) (tag : Tag) (map : Attrs) : List (String × String) :=
  (tag.fragments mode map).mergeSort fun a b => a.1 ≤ b.1

theorem fragmentsOf_sortedFragments (mode : Mode) (tag : Tag) (map : Attrs) :
    tag.FragmentsOf mode map (tag.sortedFragments mode map) := by
  have hm (key fragment : String) : (key, fragment) ∈ tag.sortedFragments mode map ↔
      (key, fragment) ∈ mapFragments mode map ∨ (key, fragment) ∈ tag.idFragment mode map ∨
        (key, fragment) ∈ tag.classFragment mode map := by
    rw [sortedFragments, List.mem_mergeSort, fragments, List.mem_append, List.mem_append, or_assoc]
  constructor
  case ascending =>
    have hs := ascending_mergeSort (pairwise_fragments mode tag map)
    exact hs.imp fun hlt => Text.bytes_lt_bytes hlt
  case ofMap =>
    intro key fragment hc hi
    simp [hm, mem_mapFragments_iff, mem_idFragment_iff, mem_classFragment_iff, hc, hi,
      attribute?_eq_some_iff]
  case idOfMap =>
    intro value fragment hv
    simp [hm, mem_mapFragments_iff, mem_idFragment_iff, mem_classFragment_iff, hv,
      attribute?_eq_some_iff]
  case idOfTag =>
    intro fragment hn
    simp [hm, mem_mapFragments_iff, mem_idFragment_iff, mem_classFragment_iff, hn,
      Mode.quotedAttribute, @eq_comm _ fragment]
  case classes =>
    intro fragment
    have he : tag.allClasses map ≠ "" ↔ ¬ (tag.classes = "" ∧ map.classText = "") := by
      rw [ne_eq, allClasses_eq_empty_iff, mapClasses_eq_classText]
    rw [hm, mem_classFragment_iff, he, allClasses_eq, mapClasses_eq_classText]
    simp [mem_mapFragments_iff, mem_idFragment_iff, Mode.quotedAttribute, @eq_comm _ fragment]

/-- The attribute text is the fragments of the start tag in ascending order of the bytes of their
    keys, each after a space, and so the same for a map in whatever order. -/
theorem attributeText_fragments (mode : Mode) (tag : Tag) (map? : Option Attrs) :
    (∃ fragments, tag.FragmentsOf mode (map?.getD .empty) fragments ∧
        tag.attributeText mode map? = String.join (fragments.map fun (_, text) => " " ++ text)) ∧
      ∀ a b : Attrs, a.entries.Perm b.entries →
        tag.attributeText mode (some a) = tag.attributeText mode (some b) := by
  constructor
  · exact ⟨_, fragmentsOf_sortedFragments mode tag _, rfl⟩
  · intro a b hp
    exact attributeText_congr mode tag (Attrs.sameValues_of_perm hp)

end Tag

end Markup
