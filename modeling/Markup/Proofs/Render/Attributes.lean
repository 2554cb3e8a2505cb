import Markup.Proofs.Tree.Keyed
import Markup.Proofs.Tree.Lookup
import Markup.Render.StartTag

set_option autoImplicit false

/-!
# The attributes of an element

What an element shows for a key depends on its tag and its map, on neither the order of the map
nor the dialect. The attribute text of a start tag is what there is to show, key by key in
ascending order.
-/

namespace Markup

inductive Shown where
  | bare
  | quoted (text : String)

namespace Shown

/-- The text of an attribute; a key that is merely present has itself. -/
def text (key : String) : Shown → String
  | bare => key
  | quoted text => text

def markup (mode : Mode) (key : String) : Shown → String
  | bare => mode.presentAttribute key
  | quoted text => mode.quotedAttribute key text

end Shown

def AttrValue.shown? (value : AttrValue) : Option Shown :=
  match value with
  | .scalar (.bool true) => some .bare
  | value => if value.isFalsy then none else value.text?.map .quoted

theorem AttrValue.shown?_eq {value : AttrValue} (h : value ≠ .scalar (.bool true)) :
    value.shown? = if value.isFalsy then none else value.text?.map .quoted := by
  unfold shown?
  split
  · exact absurd rfl h
  · rfl

theorem AttrValue.shown?_bool (value : Bool) :
    (AttrValue.bool value).shown? = if value then some .bare else none := by
  cases value <;> rfl

theorem AttrValue.shown?_str (text : String) :
    (AttrValue.str text).shown? = if text = "" then none else some (.quoted text) := by
  simp [str, shown?, isFalsy, Scalar.isFalsy, text?, Scalar.text]

theorem attribute?_eq {mode : Mode} {key : String} {value : AttrValue}
    (h : value ≠ .scalar (.bool true)) : mode.attribute? key value =
      if value.isFalsy then none else value.text?.map (mode.quotedAttribute key) := by
  unfold Mode.attribute?
  split
  · exact absurd rfl h
  · rfl

theorem attribute?_eq_map_shown? (mode : Mode) (key : String) (value : AttrValue) :
    mode.attribute? key value = value.shown?.map (Shown.markup mode key) := by
  by_cases h : value = .scalar (.bool true)
  · subst h
    rfl
  · rw [attribute?_eq h, AttrValue.shown?_eq h]
    split
    · rfl
    · rw [Option.map_map]
      rfl

namespace Tag

variable (tag : Tag) (map : Attrs)

/-- What an element shows for a key: for `class` all the classes there are, and for `id` the
    identifier of the tag if the map is silent. -/
def shown? (key : String) : Option Shown :=
  if key = "class" then
    if tag.allClasses map = "" then none else some (.quoted (tag.allClasses map))
  else if key = "id" ∧ map.get? "id" = none then tag.id?.map .quoted
  else (map.get? key).bind AttrValue.shown?

def shown : List (String × Shown) :=
  lookups (sortedKeys ("class" :: "id" :: map.keys)) (tag.shown? map)

variable {tag map} {mode : Mode} {key fragment : String}

theorem mem_keys_of_shown?_eq_some {value : Shown} (h : tag.shown? map key = some value) :
    key ∈ "class" :: "id" :: map.keys := by
  unfold shown? at h
  split at h
  · next hk => simp [hk]
  · split at h
    · next hk => simp [hk.1]
    · obtain ⟨v, hv, -⟩ := Option.bind_eq_some_iff.mp h
      have hm : key ∈ map.keys := List.mem_map_of_mem (Attrs.get?_eq_some_iff.mp hv)
      simp [hm]

theorem mem_shown_iff {value : Shown} :
    (key, value) ∈ tag.shown map ↔ tag.shown? map key = some value := by
  rw [shown, mem_lookups_iff, mem_sortedKeys_iff]
  exact and_iff_right_of_imp mem_keys_of_shown?_eq_some

theorem ascending_shown (tag : Tag) (map : Attrs) : Ascending (tag.shown map) :=
  ascending_lookups _ (pairwise_sortedKeys _)

theorem allClasses_eq_empty_iff :
    tag.allClasses map = "" ↔ tag.classes = "" ∧ mapClasses map = "" := by
  unfold allClasses
  by_cases ht : tag.classes = "" <;> by_cases hm : mapClasses map = "" <;> simp [ht, hm]

def joinClasses (first second : String) : String :=
  if first = "" then second else if second = "" then first else first ++ " " ++ second

theorem allClasses_eq (tag : Tag) (map : Attrs) :
    tag.allClasses map = joinClasses tag.classes (mapClasses map) := by
  unfold allClasses joinClasses
  by_cases ht : tag.classes = "" <;> by_cases hm : mapClasses map = "" <;>
    simp [ht, hm, String.intercalate_cons_cons]

theorem shown?_congr (tag : Tag) {a b : Attrs} (h : a.SameValues b) (key : String) :
    tag.shown? a key = tag.shown? b key := by
  have hc : tag.allClasses a = tag.allClasses b := by
    rw [allClasses_eq, allClasses_eq, mapClasses, mapClasses, h]
  unfold shown?
  rw [hc, h "id", h key]

/-! ## Fragments -/

theorem mem_mapFragments_iff : (key, fragment) ∈ mapFragments mode map ↔
    key ≠ "class" ∧ ∃ value, map.get? key = some value ∧
      mode.attribute? key value = some fragment := by
  simp only [mapFragments, List.mem_filterMap, List.mem_filter, bne_iff_ne, Option.map_eq_some_iff,
    Prod.mk.injEq, Attrs.get?_eq_some_iff]
  constructor
  · rintro ⟨entry, ⟨hm, hc⟩, _, ha, rfl, rfl⟩
    exact ⟨hc, entry.value, hm, ha⟩
  · rintro ⟨hc, value, hm, ha⟩
    exact ⟨⟨key, value⟩, ⟨hm, hc⟩, fragment, ha, rfl, rfl⟩

theorem mem_idFragment_iff : (key, fragment) ∈ tag.idFragment mode map ↔
    key = "id" ∧ map.get? "id" = none ∧ ∃ id, tag.id? = some id ∧
      mode.quotedAttribute "id" id = fragment := by
  unfold idFragment Attrs.contains
  cases tag.id? <;> cases map.get? "id" <;> simp [eq_comm]

theorem mem_classFragment_iff : (key, fragment) ∈ tag.classFragment mode map ↔
    key = "class" ∧ tag.allClasses map ≠ "" ∧
      mode.quotedAttribute "class" (tag.allClasses map) = fragment := by
  unfold classFragment
  by_cases h : tag.allClasses map = "" <;> simp [h, eq_comm]

theorem mem_fragments_iff : (key, fragment) ∈ tag.fragments mode map ↔
    (tag.shown? map key).map (Shown.markup mode key) = some fragment := by
  rw [fragments, List.mem_append, List.mem_append, mem_mapFragments_iff, mem_idFragment_iff,
    mem_classFragment_iff]
  by_cases hc : key = "class"
  · subst hc
    by_cases he : tag.allClasses map = "" <;> simp [shown?, he, Shown.markup]
  · by_cases hi : key = "id" ∧ map.get? "id" = none
    · obtain ⟨rfl, hn⟩ := hi
      simp [shown?, hn, Shown.markup]
    · have hs : tag.shown? map key = (map.get? key).bind AttrValue.shown? := by
        rw [shown?, if_neg hc, if_neg hi]
      rw [hs, Option.map_bind]
      simp only [hc, ne_eq, not_false_eq_true, true_and, false_and, or_false,
        Option.bind_eq_some_iff, attribute?_eq_map_shown?, Function.comp_apply]
      refine ⟨?_, Or.inl⟩
      rintro (h | ⟨rfl, hn, -⟩)
      · exact h
      · exact absurd ⟨rfl, hn⟩ hi

theorem pairwise_fragments (mode : Mode) (tag : Tag) (map : Attrs) :
    (tag.fragments mode map).Pairwise fun a b => a.1 ≠ b.1 := by
  have hm : (mapFragments mode map).Pairwise fun a b => a.1 ≠ b.1 := by
    refine ((List.pairwise_map.mp map.distinct).filter _).filterMap _ ?_
    intro a b hab x hx y hy
    obtain ⟨_, -, rfl⟩ := Option.map_eq_some_iff.mp hx
    obtain ⟨_, -, rfl⟩ := Option.map_eq_some_iff.mp hy
    exact hab
  have hi : (tag.idFragment mode map).Pairwise fun a b => a.1 ≠ b.1 := by
    unfold idFragment
    split
    · split
      · exact .nil
      · exact List.pairwise_singleton ..
    · exact .nil
  have hc : (tag.classFragment mode map).Pairwise fun a b => a.1 ≠ b.1 := by
    unfold classFragment
    dsimp only
    split
    · exact .nil
    · exact List.pairwise_singleton ..
  -- the three sources have no key in common: the identifier only stands in for a missing one
  refine List.pairwise_append.mpr ⟨List.pairwise_append.mpr ⟨hm, hi, ?_⟩, hc, ?_⟩
  · intro (k, f) hf (l, g) hg he
    obtain ⟨-, value, hv, -⟩ := mem_mapFragments_iff.mp hf
    obtain ⟨rfl, hn, -⟩ := mem_idFragment_iff.mp hg
    obtain rfl : k = "id" := he
    rw [hn] at hv
    cases hv
  · intro (k, f) hf (l, g) hg he
    obtain ⟨rfl, -⟩ := mem_classFragment_iff.mp hg
    obtain rfl : k = "class" := he
    rcases List.mem_append.mp hf with hf | hf
    · exact (mem_mapFragments_iff.mp hf).1 rfl
    · exact absurd (mem_idFragment_iff.mp hf).1 (by decide)

theorem attributeText_eq (mode : Mode) (tag : Tag) (map? : Option Attrs) :
    tag.attributeText mode map? =
      String.join ((tag.shown (map?.getD .empty)).map fun (key, value) =>
        " " ++ value.markup mode key) := by
  have hs : (tag.fragments mode (map?.getD .empty)).mergeSort (fun a b => a.1 ≤ b.1) =
      (tag.shown (map?.getD .empty)).map fun (key, value) => (key, value.markup mode key) := by
    apply eq_of_ascending (ascending_mergeSort (pairwise_fragments mode tag _))
    · exact List.pairwise_map.mpr (ascending_shown tag _)
    · intro (key, fragment)
      rw [List.mem_mergeSort, mem_fragments_iff]
      simp only [List.mem_map, Prod.exists, mem_shown_iff, Prod.mk.injEq, Option.map_eq_some_iff]
      constructor
      · rintro ⟨value, hv, rfl⟩
        exact ⟨key, value, hv, rfl, rfl⟩
      · rintro ⟨_, value, hv, rfl, rfl⟩
        exact ⟨value, hv, rfl⟩
  rw [attributeText, hs, List.map_map]
  rfl

theorem shown_congr (tag : Tag) {a b : Attrs} (h : a.SameValues b) : tag.shown a = tag.shown b := by
  apply eq_of_ascending (ascending_shown tag a) (ascending_shown tag b)
  intro (key, value)
  rw [mem_shown_iff, mem_shown_iff, shown?_congr tag h]

theorem attributeText_congr (mode : Mode) (tag : Tag) {a b : Attrs} (h : a.SameValues b) :
    tag.attributeText mode (some a) = tag.attributeText mode (some b) := by
  simp only [attributeText_eq, Option.getD_some, shown_congr tag h]

end Tag

end Markup
