import Markup.Proofs.Site.Selection

set_option autoImplicit false

/-!
# Submitted values

What a browser finds of a selection in its markup, and what it submits for each option: the value
or, where none is shown, the text. An empty value is not shown, so it is submitted as it should be
only if the text is empty as well.
-/

namespace Markup

structure Choice where
  text : String
  value? : Option String
deriving DecidableEq, Repr

namespace Choice

def submission (choice : Choice) : String := choice.value?.getD choice.text

/-- A choice as its markup has it: without its value, if that is empty. -/
def shown (choice : Choice) : Choice := { choice with value? := choice.value?.filter (· ≠ "") }

theorem submission_shown_iff (choice : Choice) : choice.shown.submission = choice.submission ↔
    (choice.value? = some "" → choice.text = "") := by
  obtain ⟨text, value?⟩ := choice
  cases value? with
  | none => simp [shown, submission]
  | some value => by_cases hv : value = "" <;> simp [shown, submission, Option.filter_some, hv]

theorem map_submission_shown_iff (choices : List Choice) :
    (choices.map shown).map submission = choices.map submission ↔
      ∀ choice ∈ choices, choice.value? = some "" → choice.text = "" := by
  rw [List.map_map, List.map_inj_left]
  exact forall₂_congr fun choice _ => choice.submission_shown_iff

end Choice

namespace SelectOption

mutual

def choices : SelectOption → List Choice
  | .label text => [⟨text, none⟩]
  | .valued text value => [⟨text, some value⟩]
  | .group _ options => listChoices options

def listChoices : List SelectOption → List Choice
  | [] => []
  | entry :: rest => choices entry ++ listChoices rest

end

end SelectOption

namespace Outline

/-- The choice that an option element stands for, given the text behind its start tag. -/
def choice? : Mark × String → Option Choice
  | (.start name attributes, text) =>
    if name = "option" then some ⟨text, attributes.lookup "value"⟩ else none
  | (.stop _, _) => none

def choices (outline : Outline) : List Choice := outline.marks.filterMap choice?

theorem choices_addMark_start {name : String} (hn : name ≠ "option")
    (attributes : List (String × String)) (outline : Outline) :
    (outline.addMark (.start name attributes)).choices = outline.choices :=
  List.filterMap_cons_none (if_neg hn)

section Gathering

variable (selected? : Option String)

theorem choices_option (shown : List (String × Shown)) (text : String) (rest : List Part)
    (after : Outline) :
    (gather (([Part.start "option" shown, .text text, .stop "option"] ++ rest).map Part.piece)
      after).choices =
        ⟨text, (shown.map fun (key, value) => (key, value.text key)).lookup "value"⟩ ::
          (gather (rest.map Part.piece) after).choices := by
  have ht : text ++ "" = text := String.append_empty
  conv_rhs => rw [← ht]
  rfl

theorem lookup_value (selected : Bool) (more : List (String × Shown)) :
    ((SelectOption.mark selected ++ more).map fun (key, value) => (key, value.text key)).lookup
      "value" = (more.map fun (key, value) => (key, value.text key)).lookup "value" := by
  cases selected <;> rfl

theorem lookup_wording (value : String) :
    ((SelectOption.wording "value" value).map fun (key, content) =>
      (key, content.text key)).lookup "value" = (some value).filter (· ≠ "") := by
  by_cases hv : value = "" <;>
    simp [SelectOption.wording, Option.filter_some, hv, Shown.text]

theorem choices_gather_listParts (entries : List SelectOption) (after : Outline) :
    (gather ((SelectOption.listParts selected? entries).map Part.piece) after).choices =
      (SelectOption.listChoices entries).map Choice.shown ++ after.choices := by
  induction entries using SelectOption.list_induction generalizing after with
  | nil =>
    rw [SelectOption.listParts, SelectOption.listChoices]
    rfl
  | label text rest ih =>
    have hm := lookup_value (selected? == some text) []
    rw [List.append_nil] at hm
    rw [SelectOption.listParts, SelectOption.parts, SelectOption.listChoices, SelectOption.choices,
      choices_option, ih, hm]
    rfl
  | valued text value rest ih =>
    rw [SelectOption.listParts, SelectOption.parts, SelectOption.listChoices, SelectOption.choices,
      choices_option, ih, lookup_value, lookup_wording]
    rfl
  | group text options rest hi ih =>
    rw [SelectOption.listParts, SelectOption.parts, SelectOption.listChoices, SelectOption.choices,
      List.map_append, gather_append, List.map_cons, List.map_append, Part.piece, gather_mark,
      gather_append]
    simp only [Function.comp_apply, choices_addMark_start (by decide : "optgroup" ≠ "option")]
    -- the end tag of the group holds no choice, so what follows it is that of the rest
    rw [hi, List.map_append, List.append_assoc, ← ih]
    rfl

end Gathering

end Outline

section Reading

variable {options : RenderOptions}

theorem exists_choices (hm : options.mode ≠ .sgml) (he : options.escapeStrings = true)
    (entries : List SelectOption) (selected? : Option String) :
    ∃ markup outline, render options [Form.selectOptions entries selected?] = .ok markup ∧
      scan markup.toList = some outline ∧
      outline.choices = (SelectOption.listChoices entries).map Choice.shown := by
  have hw := writtenAs_selectOptions selected? entries
  refine ⟨_, _, hw.render options, hw.scan hm he, ?_⟩
  rw [Outline.choices_gather_listParts]
  exact List.append_nil _

/-- A reader of the markup finds the choices of a selection in order, without the empty values. So
    what is submitted for each is its value, or its text if it was given none, exactly if no choice
    with a text has an empty value. -/
theorem submissions_of_selection (hm : options.mode ≠ .sgml) (he : options.escapeStrings = true)
    (entries : List SelectOption) (selected? : Option String) :
    ∃ markup outline, render options [Form.selectOptions entries selected?] = .ok markup ∧
      scan markup.toList = some outline ∧
      outline.choices = (SelectOption.listChoices entries).map Choice.shown ∧
      (outline.choices.map Choice.submission =
          (SelectOption.listChoices entries).map Choice.submission ↔
        ∀ choice ∈ SelectOption.listChoices entries,
          choice.value? = some "" → choice.text = "") := by
  obtain ⟨markup, outline, hr, hs, hc⟩ := exists_choices hm he entries selected?
  refine ⟨markup, outline, hr, hs, hc, ?_⟩
  rw [hc]
  exact Choice.map_submission_shown_iff _

end Reading

theorem submissions_of_countries :
    let options : RenderOptions := { mode := .html }
    let entries : List SelectOption :=
      [.label "Any", .group "Europe" [.valued "Norway" "no", .valued "Malta & Gozo" "m\"t"]]
    options.mode ≠ .sgml ∧ options.escapeStrings = true ∧
      ∃ markup outline, render options [Form.selectOptions entries (some "no")] = .ok markup ∧
        scan markup.toList = some outline ∧
        outline.choices.map Choice.submission = ["Any", "no", "m\"t"] := by
  intro options entries
  have hm : options.mode ≠ .sgml := by decide
  obtain ⟨markup, outline, hr, hs, hc, -⟩ := submissions_of_selection hm rfl entries (some "no")
  refine ⟨hm, rfl, markup, outline, hr, hs, ?_⟩
  rw [hc]
  decide

/-- The text is submitted in place of an empty value. -/
theorem submission_of_empty_value :
    ¬ ∀ (entries : List SelectOption) (selected? : Option String), ∃ markup outline,
      render { mode := .html } [Form.selectOptions entries selected?] = .ok markup ∧
        scan markup.toList = some outline ∧ outline.choices.map Choice.submission =
          (SelectOption.listChoices entries).map Choice.submission := by
  intro h
  have hm : ({ mode := .html } : RenderOptions).mode ≠ .sgml := by decide
  obtain ⟨markup, outline, hr, hs, hx⟩ := h [.valued "None" ""] none
  obtain ⟨other, read, ho, ht, hc⟩ := exists_choices hm rfl [.valued "None" ""] none
  obtain rfl : markup = other := Except.ok.inj (hr.symm.trans ho)
  obtain rfl : outline = read := Option.some.inj (hs.symm.trans ht)
  rw [hc] at hx
  exact absurd hx (by decide)

end Markup
