import Markup.Proofs.Render.Parts
import Markup.Site.Form

set_option autoImplicit false

/-!
# Selections

The elements of a selection stand in the order and the nesting of its entries. Those of the options
that are selected are marked in the markup, no others.
-/

namespace Markup

/-! ## Elements -/

/-- The elements of some entries: one for each, in order. That of an option has the label for its
    child, and that of a group has the label as an attribute and the elements of its options
    inside. -/
inductive Presents : List SelectOption → List Node → Prop
  | nil : Presents [] []
  | label (text : String) (map : Attrs) {entries : List SelectOption} {nodes : List Node}
    (hr : Presents entries nodes) :
    Presents (.label text :: entries) (.elementWith "option" map [.text text] :: nodes)
  | valued (text value : String) (map : Attrs) {entries : List SelectOption} {nodes : List Node}
    (hr : Presents entries nodes) :
    Presents (.valued text value :: entries) (.elementWith "option" map [.text text] :: nodes)
  | group {text : String} {map : Attrs} {options entries : List SelectOption}
    {inside nodes : List Node} (hl : map.get? "label" = some (.str text))
    (hi : Presents options inside) (hr : Presents entries nodes) :
    Presents (.group text options :: entries)
      (.elementWith "optgroup" map [.seq inside] :: nodes)

/-- Parts in which exactly the options that are selected, by their value or else by their label, are
    marked as such. -/
inductive Marked (selected? : Option String) : List SelectOption → List Part → Prop
  | nil : Marked selected? [] []
  | label {text : String} {shown : List (String × Shown)} {entries : List SelectOption}
    {parts : List Part} (hs : (∃ value, ("selected", value) ∈ shown) ↔ selected? = some text)
    (hr : Marked selected? entries parts) :
    Marked selected? (.label text :: entries)
      (.start "option" shown :: .text text :: .stop "option" :: parts)
  | valued {text value : String} {shown : List (String × Shown)} {entries : List SelectOption}
    {parts : List Part} (hs : (∃ value, ("selected", value) ∈ shown) ↔ selected? = some value)
    (hr : Marked selected? entries parts) :
    Marked selected? (.valued text value :: entries)
      (.start "option" shown :: .text text :: .stop "option" :: parts)
  | group (text : String) {shown : List (String × Shown)} {options entries : List SelectOption}
    {inside parts : List Part} (hs : ∀ value, ("selected", value) ∉ shown)
    (hi : Marked selected? options inside) (hr : Marked selected? entries parts) :
    Marked selected? (.group text options :: entries)
      (.start "optgroup" shown :: (inside ++ .stop "optgroup" :: parts))

/-! ## Parts -/

namespace SelectOption

def mark (selected : Bool) : List (String × Shown) := if selected then [("selected", .bare)] else []

def wording (key text : String) : List (String × Shown) :=
  if text = "" then [] else [(key, .quoted text)]

mutual

def parts (selected? : Option String) : SelectOption → List Part
  | .label text =>
    [.start "option" (mark (selected? == some text)), .text text, .stop "option"]
  | .valued text value =>
    [.start "option" (mark (selected? == some value) ++ wording "value" value), .text text,
      .stop "option"]
  | .group text options =>
    .start "optgroup" (wording "label" text) :: (listParts selected? options ++ [.stop "optgroup"])

def listParts (selected? : Option String) : List SelectOption → List Part
  | [] => []
  | entry :: rest => parts selected? entry ++ listParts selected? rest

end

theorem shown_label (selected : Bool) :
    (Tag.ofName "option").shown (.ofPairs [("selected", .bool selected)]) = mark selected := by
  have ha : Ascending [("selected", AttrValue.bool selected)] := List.pairwise_singleton ..
  rw [Tag.shown_ofName "option" ha rfl fun key value => ?_]
  · cases selected <;> rfl
  · change _ ↔ _ ∈ [Attribute.mk "selected" (.bool selected)]
    simp

theorem shown_valued (value : String) (selected : Bool) :
    (Tag.ofName "option").shown (.ofPairs [("value", .str value), ("selected", .bool selected)]) =
      mark selected ++ wording "value" value := by
  have ha : Ascending [("selected", AttrValue.bool selected), ("value", .str value)] :=
    List.pairwise_pair.mpr (by decide : "selected" < "value")
  rw [Tag.shown_ofName "option" ha rfl fun key content => ?_]
  · by_cases hv : value = "" <;> cases selected <;>
      simp [AttrValue.shown?_bool, AttrValue.shown?_str, mark, wording, hv]
  · change _ ↔ _ ∈ [Attribute.mk "value" (.str value), ⟨"selected", .bool selected⟩]
    simp [or_comm]

theorem shown_group (text : String) :
    (Tag.ofName "optgroup").shown (.ofPairs [("label", .str text)]) = wording "label" text := by
  have ha : Ascending [("label", AttrValue.str text)] := List.pairwise_singleton ..
  rw [Tag.shown_ofName "optgroup" ha rfl fun key value => ?_]
  · by_cases ht : text = "" <;> simp [AttrValue.shown?_str, wording, ht]
  · change _ ↔ _ ∈ [Attribute.mk "label" (.str text)]
    simp

/-- An induction on entries, which goes into the options of a group as well. -/
theorem list_induction {motive : List SelectOption → Prop} (nil : motive [])
    (label : ∀ text rest, motive rest → motive (.label text :: rest))
    (valued : ∀ text value rest, motive rest → motive (.valued text value :: rest))
    (group : ∀ text options rest, motive options → motive rest →
      motive (.group text options :: rest)) (entries : List SelectOption) : motive entries := by
  match entries with
  | [] => exact nil
  | .label text :: rest => exact label text rest (list_induction nil label valued group rest)
  | .valued text value :: rest =>
    exact valued text value rest (list_induction nil label valued group rest)
  | .group text options :: rest =>
    exact group text options rest (list_induction nil label valued group options)
      (list_induction nil label valued group rest)

end SelectOption

variable (selected? : Option String)

theorem writtenAs_option {map : Attrs} (hk : HasPlainKeys (some map)) (text : String) :
    WrittenAs [.elementWith "option" map [.text text]]
      [.start "option" ((Tag.ofName "option").shown map), .text text, .stop "option"] :=
  .element (by decide) (by decide) (by decide) hk (List.cons_ne_nil _ _) (.text text)

theorem writtenAs_optionElements (entries : List SelectOption) :
    WrittenAs (Form.optionElements selected? entries)
      (SelectOption.listParts selected? entries) := by
  induction entries using SelectOption.list_induction with
  | nil =>
    rw [Form.optionElements, SelectOption.listParts]
    exact .nil
  | label text rest ih =>
    have hk : ∀ key ∈ ["selected"], IsPlainName key := by decide
    rw [Form.optionElements, Form.selectOption, SelectOption.listParts, SelectOption.parts,
      ← SelectOption.shown_label]
    refine .cons (writtenAs_option ?_ text) ih
    exact hk
  | valued text value rest ih =>
    have hk : ∀ key ∈ ["value", "selected"], IsPlainName key := by decide
    rw [Form.optionElements, Form.selectOption, SelectOption.listParts, SelectOption.parts,
      ← SelectOption.shown_valued]
    refine .cons (writtenAs_option ?_ text) ih
    exact hk
  | group text options rest hi ih =>
    have hk : ∀ key ∈ ["label"], IsPlainName key := by decide
    rw [Form.optionElements, Form.selectOption, SelectOption.listParts, SelectOption.parts,
      ← SelectOption.shown_group]
    refine .cons (.element (by decide) (by decide) (by decide) ?_ (List.cons_ne_nil _ _) hi.seq) ih
    exact hk

theorem writtenAs_selectOptions (entries : List SelectOption) :
    WrittenAs [Form.selectOptions entries selected?] (SelectOption.listParts selected? entries) :=
  (writtenAs_optionElements selected? entries).seq

theorem exists_mem_mark_iff (selected : Bool) {more : List (String × Shown)}
    (hm : ∀ value, ("selected", value) ∉ more) :
    (∃ value, ("selected", value) ∈ SelectOption.mark selected ++ more) ↔ selected = true := by
  cases selected <;> simp [SelectOption.mark, hm]

theorem not_mem_wording {key : String} (hk : "selected" ≠ key) (text : String) (value : Shown) :
    ("selected", value) ∉ SelectOption.wording key text := by
  unfold SelectOption.wording
  split <;> simp [hk]

/-! ## Structure -/

theorem presents_optionElements (entries : List SelectOption) :
    Presents entries (Form.optionElements selected? entries) := by
  induction entries using SelectOption.list_induction with
  | nil =>
    rw [Form.optionElements]
    exact .nil
  | label text rest ih =>
    rw [Form.optionElements, Form.selectOption]
    exact .label text _ ih
  | valued text value rest ih =>
    rw [Form.optionElements, Form.selectOption]
    exact .valued text value _ ih
  | group text options rest hi ih =>
    rw [Form.optionElements, Form.selectOption]
    exact .group rfl hi ih

theorem marked_listParts (entries : List SelectOption) :
    Marked selected? entries (SelectOption.listParts selected? entries) := by
  induction entries using SelectOption.list_induction with
  | nil =>
    rw [SelectOption.listParts]
    exact .nil
  | label text rest ih =>
    have hs := exists_mem_mark_iff (selected? == some text) (nofun : ∀ value, _ ∉ [])
    rw [List.append_nil, beq_iff_eq] at hs
    rw [SelectOption.listParts, SelectOption.parts]
    exact .label hs ih
  | valued text value rest ih =>
    have hs := exists_mem_mark_iff (selected? == some value)
      (not_mem_wording (by decide : "selected" ≠ "value") value)
    rw [beq_iff_eq] at hs
    rw [SelectOption.listParts, SelectOption.parts]
    exact .valued hs ih
  | group text options rest hi ih =>
    have hs := not_mem_wording (by decide : "selected" ≠ "label") text
    rw [SelectOption.listParts, SelectOption.parts, List.cons_append, List.append_assoc]
    exact .group text hs hi ih

/-- The elements of a selection follow its entries, however these are nested. In the markup exactly
    the selected options are marked, and no group is. -/
theorem select_options_presented (entries : List SelectOption) :
    (∃ items, Form.selectOptions entries selected? = .seq items ∧ Presents entries items) ∧
      ∃ parts, Marked selected? entries parts ∧
        ∀ options, render options [Form.selectOptions entries selected?] =
          .ok (String.join (parts.map (Part.markup options))) :=
  ⟨⟨_, rfl, presents_optionElements selected? entries⟩,
    ⟨_, marked_listParts selected? entries, (writtenAs_selectOptions selected? entries).render⟩⟩

end Markup
