import Markup.Proofs.Render.Composition

set_option autoImplicit false

/-!
# Elements of a name and a map

Most elements have a tag that is only a name, and an attribute map behind it. Such an element shows
what is in its map, and attributes merged into it update the map.
-/

namespace Markup

/-! ## Start tags -/

namespace Mode

def attributesOf (mode : Mode) (shown : List (String × Shown)) : String :=
  String.join (shown.map fun (key, value) => " " ++ value.markup mode key)

def startTag (mode : Mode) (name : String) (shown : List (String × Shown)) : String :=
  "<" ++ name ++ mode.attributesOf shown ++ ">"

theorem attributesOf_insert (mode : Mode) (before after : List (String × Shown)) (key : String)
    (value : Shown) :
    mode.attributesOf (before ++ (key, value) :: after) ≠ mode.attributesOf (before ++ after) := by
  simp only [attributesOf, List.map_append, List.map_cons, String.join_append, String.join_cons]
  rw [Ne, String.append_right_inj, String.append_eq_right_iff, String.append_eq_empty_iff]
  exact fun h => absurd h.1 (by decide)

end Mode

namespace Tag

def ofName (name : String) : Tag := ⟨name, none, ""⟩

theorem shown?_ofName (name : String) {map : Attrs} {key : String} (hk : key ≠ "class") :
    (ofName name).shown? map key = (map.get? key).bind AttrValue.shown? := by
  unfold shown?
  rw [if_neg hk]
  split
  · next h =>
    rw [h.1, h.2]
    rfl
  · rfl

theorem shown?_ofName_class (name : String) (map : Attrs) : (ofName name).shown? map "class" =
    if mapClasses map = "" then none else some (.quoted (mapClasses map)) := by
  have hc : (ofName name).allClasses map = mapClasses map := by
    rw [allClasses_eq]
    rfl
  rw [shown?, if_pos rfl, hc]

theorem shown?_ofName_congr (name : String) {a b : Attrs} {key : String}
    (h : a.get? key = b.get? key) : (ofName name).shown? a key = (ofName name).shown? b key := by
  by_cases hk : key = "class"
  · subst hk
    rw [shown?_ofName_class, shown?_ofName_class, mapClasses, mapClasses, h]
  · rw [shown?_ofName name hk, shown?_ofName name hk, h]

theorem shown_ofName (name : String) {map : Attrs} {entries : List (String × AttrValue)}
    (ha : Ascending entries) (hc : map.get? "class" = none)
    (hm : ∀ key value, (key, value) ∈ entries ↔ ⟨key, value⟩ ∈ map.entries) :
    (ofName name).shown map =
      entries.filterMap fun entry => entry.2.shown?.map (entry.1, ·) := by
  have hv (key : String) :
      (ofName name).shown? map key = (map.get? key).bind AttrValue.shown? := by
    by_cases hk : key = "class"
    · subst hk
      rw [shown?_ofName_class, mapClasses, hc]
      rfl
    · exact shown?_ofName name hk
  apply eq_of_ascending (ascending_shown ..)
  · refine ha.filterMap _ ?_
    intro a b hab x hx y hy
    obtain ⟨_, -, rfl⟩ := Option.map_eq_some_iff.mp hx
    obtain ⟨_, -, rfl⟩ := Option.map_eq_some_iff.mp hy
    exact hab
  · rintro ⟨key, value⟩
    rw [mem_shown_iff, hv]
    simp only [Option.bind_eq_some_iff, Attrs.get?_eq_some_iff, ← hm, List.mem_filterMap,
      Prod.exists, Option.map_eq_some_iff, Prod.mk.injEq]
    constructor
    · rintro ⟨own, ho, hs⟩
      exact ⟨key, own, ho, value, hs, rfl, rfl⟩
    · rintro ⟨_, own, ho, _, hs, rfl, rfl⟩
      exact ⟨own, ho, hs⟩

theorem attributeText_eq_attributesOf (mode : Mode) (tag : Tag) (map? : Option Attrs) :
    tag.attributeText mode map? = mode.attributesOf (tag.shown (map?.getD .empty)) :=
  attributeText_eq mode tag map?

section Hidden

variable {tag : Tag} {a b : Attrs} {key : String} (hk : tag.shown? a key = none)
  (ho : ∀ other ≠ key, tag.shown? a other = tag.shown? b other)
include hk ho

theorem mem_shown_hidden_iff {entry : String × Shown} :
    entry ∈ tag.shown a ↔ entry.1 ≠ key ∧ entry ∈ tag.shown b := by
  obtain ⟨other, value⟩ := entry
  rw [mem_shown_iff, mem_shown_iff]
  by_cases he : other = key
  · subst he
    simp [hk]
  · simp [he, ho other he]

theorem shown_hidden_of_none (hb : tag.shown? b key = none) : tag.shown a = tag.shown b := by
  apply eq_of_ascending (ascending_shown tag a) (ascending_shown tag b)
  intro entry
  rw [mem_shown_hidden_iff hk ho, and_iff_right_of_imp]
  rintro he rfl
  rw [mem_shown_iff, hb] at he
  cases he

theorem shown_hidden_of_some {value : Shown} (hb : tag.shown? b key = some value) :
    ∃ before after, tag.shown b = before ++ (key, value) :: after ∧
      tag.shown a = before ++ after := by
  obtain ⟨before, after, hs⟩ := List.append_of_mem (mem_shown_iff.mpr hb)
  have hc := ascending_shown tag b
  rw [hs] at hc
  have hd : ∀ entry ∈ before ++ after, key ≠ entry.1 :=
    (List.pairwise_cons.mp ((List.pairwise_middle Ne.symm).mp (hc.imp ne_of_lt))).1
  refine ⟨before, after, hs, ?_⟩
  apply eq_of_ascending (ascending_shown tag a)
    (hc.sublist ((List.sublist_cons_self _ after).append_left before))
  intro entry
  -- keys do not repeat, so only the entry in between has this one
  have hne := hd entry
  rw [mem_shown_hidden_iff hk ho, hs]
  grind

/-- Where one map shows nothing for a key and another shows the same for every other key, the
    attribute texts differ unless that shows nothing for the key either. -/
theorem attributesOf_hidden_iff (mode : Mode) :
    mode.attributesOf (tag.shown a) = mode.attributesOf (tag.shown b) ↔
      tag.shown? b key = none := by
  cases hb : tag.shown? b key with
  | none => simp [shown_hidden_of_none hk ho hb]
  | some value =>
    obtain ⟨before, after, hs, ha⟩ := shown_hidden_of_some hk ho hb
    have hn := mode.attributesOf_insert before after key value
    simp [ha, hs, hn.symm]

end Hidden

end Tag

/-! ## Elements -/

namespace Node

section ElementWith

variable {name : String} (own : Attrs) (children : List Node)

theorem mergeAttrs_elementWith (more? : Option Attrs) :
    (elementWith name own children).mergeAttrs more? =
      elementWith name (own.update (more?.getD .empty)) children := by
  rw [mergeAttrs_eq]
  by_cases h : more?.getD .empty = .empty
  · rw [h, mergeAttrs_empty, Attrs.update_empty]
  · rw [mergeAttrs_some h]
    rfl

theorem descriptor?_elementWith {tag : Tag} (ht : Tag.parse? name = some tag) :
    (elementWith name own children).descriptor? = some tag :=
  ht

end ElementWith

end Node

theorem render_elementWith (options : RenderOptions) {name : String}
    (ht : Tag.parse? name = some (.ofName name)) (map : Attrs) {children : List Node}
    (hv : Tag.isVoidName name = false ∨ children = []) :
    render options [.elementWith name map children] = (render options children).map
      ((Tag.ofName name).markup options.mode
        (options.mode.attributesOf ((Tag.ofName name).shown map)) children) := by
  have hd := Node.descriptor?_elementWith map children ht
  have hn : (Tag.isVoidName (Tag.ofName name).name && !children.isEmpty) = false := by
    rcases hv with hv | hv <;> simp [Tag.ofName, hv]
  rw [Node.elementWith, render_element options hd rfl, hn, if_neg Bool.false_ne_true,
    Tag.attributeText_eq_attributesOf, Option.getD_some]

theorem Tag.markup_of_children (mode : Mode) (tag : Tag) (attributes : String)
    {children : List Node} (hc : children ≠ []) (inside : String) :
    tag.markup mode attributes children inside =
      "<" ++ tag.name ++ attributes ++ ">" ++ inside ++ "</" ++ tag.name ++ ">" := by
  simp [markup, hc, String.append_assoc]

end Markup
