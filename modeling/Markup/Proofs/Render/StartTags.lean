import Markup.Proofs.Render.Attributes
import Markup.Proofs.Render.Scanner
import Markup.Proofs.Render.Traversal

set_option autoImplicit false

/-!
# Reading start tags back

The start tag of an element is read back as its name and the texts of its attributes, if the name
and the keys have no characters that bound names, keys or values.
-/

namespace Markup

def isReserved (c : Char) : Bool :=
  Text.isBlank c || isStructural c || c == '=' || c == '/' || c == '&'

/-- A name that stands in markup as it is. -/
def IsPlainName (name : String) : Prop := name ≠ "" ∧ ∀ c ∈ name.toList, isReserved c = false

instance (name : String) : Decidable (IsPlainName name) :=
  decidable_of_iff (name ≠ "" ∧ name.toList.any isReserved = false) (by simp [IsPlainName])

def Tag.attributes (tag : Tag) (map? : Option Attrs) : List (String × String) :=
  (tag.shown (map?.getD .empty)).map fun (key, value) => (key, value.text key)

namespace IsPlainName

variable {name : String} (h : IsPlainName name)
include h

theorem not_mem {c : Char} (hc : isReserved c = true) : c ∉ name.toList := by
  intro hm
  rw [h.2 c hm] at hc
  cases hc

theorem isKeyChar_eq_true : ∀ c ∈ name.toList, isKeyChar c = true := by
  intro c hc
  have hr := h.2 c hc
  simp only [isReserved, Bool.or_eq_false_iff] at hr
  simp [isKeyChar, hr]

theorem not_isBlank : ∀ c ∈ name.toList, (!Text.isBlank c) = true := by
  intro c hc
  have hr := h.2 c hc
  simp only [isReserved, Bool.or_eq_false_iff] at hr
  simp [hr]

theorem toList_ne_nil : name.toList ≠ [] := by
  simpa using h.1

theorem head?_append_ne (text : List Char) : (name.toList ++ text).head? ≠ some '/' := by
  obtain ⟨c, cs, hc⟩ := List.exists_cons_of_ne_nil h.toList_ne_nil
  rw [hc]
  rintro he
  cases he
  exact h.not_mem rfl (hc ▸ List.mem_cons_self)

theorem escape_eq (mode : Mode) : mode.escape name = name := by
  have hc : ∀ c ∈ name.toList, mode.escapeChar c = [c] := by
    intro c hc
    have hr := h.2 c hc
    simp only [isReserved, isStructural, Bool.or_eq_false_iff, beq_eq_false_iff_ne] at hr
    simp [Mode.escapeChar, hr]
  rw [← String.toList_inj, toList_escape, List.flatMap_congr hc]
  simp

end IsPlainName

/-! ## Attributes -/

section Attributes

variable {mode : Mode} {key : String} {rest : List Char}

theorem markup_shown (mode : Mode) (value : Shown) (h : IsPlainName key) :
    (value.markup mode key = key ∧ value.text key = key) ∨
      value.markup mode key = mode.quotedAttribute key (value.text key) := by
  cases value with
  | quoted text => exact Or.inr rfl
  | bare =>
    cases hx : mode.isXml with
    | false => exact Or.inl ⟨by simp [Shown.markup, Mode.presentAttribute, hx], rfl⟩
    | true =>
      right
      simp [Shown.markup, Shown.text, Mode.presentAttribute, Mode.quotedAttribute, hx,
        h.escape_eq mode]

theorem readAttribute?_bare (h : IsPlainName key)
    (hr : ∀ c ∈ rest.head?, Text.isBlank c = true) :
    readAttribute? (key.toList ++ rest) = some ((key, key), rest) := by
  have hs : ∀ c ∈ rest.head?, isKeyChar c = false := by
    intro c hc
    simp [isKeyChar, hr c hc]
  unfold readAttribute?
  rw [Text.takeWhile_append_of_stop h.isKeyChar_eq_true hs,
    Text.dropWhile_append_of_stop h.isKeyChar_eq_true hs]
  dsimp only
  rw [if_neg h.toList_ne_nil, String.ofList_toList]
  -- a rest that starts with an equals sign does not start with a blank
  split
  · exact absurd (hr '=' rfl) (by decide)
  · exact absurd (hr '=' rfl) (by decide)
  · rfl

theorem readAttribute?_quoted (hm : mode ≠ .sgml) (h : IsPlainName key) (text : String) :
    readAttribute? ((mode.quotedAttribute key text).toList ++ rest) = some ((key, text), rest) := by
  have ht : (mode.quotedAttribute key text).toList ++ rest =
      key.toList ++ '=' :: '"' :: ((mode.escape text).toList ++ '"' :: rest) := by
    simp [Mode.quotedAttribute]
  have hs : ∀ c ∈ ('=' :: '"' :: ((mode.escape text).toList ++ '"' :: rest)).head?,
      isKeyChar c = false := by
    simp [isKeyChar]
  unfold readAttribute?
  rw [ht, Text.takeWhile_append_of_stop h.isKeyChar_eq_true hs,
    Text.dropWhile_append_of_stop h.isKeyChar_eq_true hs]
  dsimp only
  rw [if_neg h.toList_ne_nil]
  change (Uri.splitAt? '"' ((mode.escape text).toList ++ '"' :: rest)).map _ = _
  rw [Uri.splitAt?_append_cons rest (not_mem_escape rfl), Option.map_some, unescaped_escape hm,
    String.ofList_toList]

theorem readAttribute?_shown (hm : mode ≠ .sgml) (h : IsPlainName key) (value : Shown)
    (hr : ∀ c ∈ rest.head?, Text.isBlank c = true) :
    readAttribute? ((value.markup mode key).toList ++ rest) =
      some ((key, value.text key), rest) := by
  rcases markup_shown mode value h with ⟨he, ht⟩ | he
  · rw [he, ht, readAttribute?_bare h hr]
  · rw [he, readAttribute?_quoted hm h]

theorem isBlank_head_markup (mode : Mode) (value : Shown) (h : IsPlainName key)
    (rest : List Char) :
    ∀ c ∈ ((value.markup mode key).toList ++ rest).head?, Text.isBlank c = false := by
  obtain ⟨tail, ht⟩ : ∃ tail, (value.markup mode key).toList = key.toList ++ tail := by
    rcases markup_shown mode value h with ⟨he, -⟩ | he
    · exact ⟨[], by simp [he]⟩
    · exact ⟨_, by rw [he, Mode.quotedAttribute, String.append_assoc, String.append_assoc,
        String.toList_append]⟩
  obtain ⟨c, cs, hk⟩ := List.exists_cons_of_ne_nil h.toList_ne_nil
  have hb := h.not_isBlank c (by simp [hk])
  simpa [ht, hk] using hb

theorem readAttributes_shown (hm : mode ≠ .sgml) (h : IsPlainName key) (value : Shown)
    (hr : ∀ c ∈ rest.head?, Text.isBlank c = true) :
    readAttributes (' ' :: ((value.markup mode key).toList ++ rest)) =
      (readAttributes rest).map ((key, value.text key) :: ·) := by
  apply readAttributes_of_readAttribute?
  have blank : ∀ c ∈ [' '], Text.isBlank c = true := List.forall_mem_singleton.mpr rfl
  have hd := Text.dropWhile_append_of_stop blank (isBlank_head_markup mode value h rest)
  rw [List.singleton_append] at hd
  rw [hd]
  exact readAttribute?_shown hm h value hr

theorem readAttributes_join (hm : mode ≠ .sgml) {shown : List (String × Shown)}
    (hk : ∀ entry ∈ shown, IsPlainName entry.1) (hr : ∀ c ∈ rest, Text.isBlank c = true) :
    readAttributes ((String.join (shown.map fun (key, value) =>
        " " ++ value.markup mode key)).toList ++ rest) =
      some (shown.map fun (key, value) => (key, value.text key)) := by
  rw [String.toList_join, List.flatMap_map]
  induction shown with
  | nil => exact readAttributes_blank hr
  | cons entry more ih =>
    obtain ⟨key, value⟩ := entry
    obtain ⟨hp, hk⟩ := List.forall_mem_cons.mp hk
    -- what follows an attribute is the blank before the next one, or the blanks at the end
    have hs : ∀ c ∈ ((more.flatMap fun (key, value) =>
        (" " ++ Shown.markup mode key value).toList) ++ rest).head?, Text.isBlank c = true := by
      cases more with
      | nil => exact fun c hc => hr c (List.mem_of_mem_head? hc)
      | cons next others =>
        intro c hc
        simp at hc
        subst hc
        decide
    have hw := readAttributes_shown hm hp value hs
    rw [ih hk, Option.map_some] at hw
    simpa using hw

end Attributes

/-! ## Tags -/

section Tags

variable {mode : Mode} {tag : Tag} {map? : Option Attrs}

def HasPlainKeys (map? : Option Attrs) : Prop :=
  ∀ key ∈ (map?.getD .empty).keys, IsPlainName key

theorem isPlainName_of_mem_shown (tag : Tag) (hk : HasPlainKeys map?) :
    ∀ entry ∈ tag.shown (map?.getD .empty), IsPlainName entry.1 := by
  intro (key, value) he
  have hm := Tag.mem_keys_of_shown?_eq_some (Tag.mem_shown_iff.mp he)
  rw [List.mem_cons, List.mem_cons] at hm
  rcases hm with rfl | rfl | hm
  · exact (by decide : IsPlainName "class")
  · exact (by decide : IsPlainName "id")
  · exact hk key hm

theorem head_attributeText {rest : List Char} (hr : ∀ c ∈ rest.head?, Text.isBlank c = true) :
    ∀ c ∈ ((tag.attributeText mode map?).toList ++ rest).head?, Text.isBlank c = true := by
  rw [Tag.attributeText_eq, String.toList_join, List.flatMap_map]
  cases tag.shown (map?.getD .empty) with
  | nil => exact hr
  | cons entry more =>
    intro c hc
    simp at hc
    subst hc
    decide

theorem readStart?_tag (hm : mode ≠ .sgml) (hn : IsPlainName tag.name) (hk : HasPlainKeys map?)
    {rest : List Char} (hr : ∀ c ∈ rest, Text.isBlank c = true) :
    readStart? (tag.name.toList ++ ((tag.attributeText mode map?).toList ++ rest)) =
      some (tag.name, tag.attributes map?) := by
  have hs : ∀ c ∈ ((tag.attributeText mode map?).toList ++ rest).head?,
      (!Text.isBlank c) = false := by
    intro c hc
    rw [head_attributeText (fun c hc => hr c (List.mem_of_mem_head? hc)) c hc]
    rfl
  rw [readStart?, Text.takeWhile_append_of_stop hn.not_isBlank hs,
    Text.dropWhile_append_of_stop hn.not_isBlank hs, Tag.attributeText_eq,
    readAttributes_join hm (isPlainName_of_mem_shown tag hk) hr, String.ofList_toList]
  rfl

theorem not_mem_markup (mode : Mode) {key : String} (hk : IsPlainName key) (value : Shown) :
    '>' ∉ (value.markup mode key).toList := by
  have hg : '>' ∉ key.toList := hk.not_mem rfl
  rcases markup_shown mode value hk with ⟨he, -⟩ | he
  · rwa [he]
  · have ht : '>' ∉ (mode.escape (value.text key)).toList := not_mem_escape rfl
    simp [he, Mode.quotedAttribute, hg, ht]

theorem not_mem_attributeText (hk : HasPlainKeys map?) :
    '>' ∉ (tag.attributeText mode map?).toList := by
  rw [Tag.attributeText_eq, String.toList_join, List.flatMap_map, List.mem_flatMap]
  rintro ⟨⟨key, value⟩, he, hc⟩
  have hn := not_mem_markup mode (isPlainName_of_mem_shown tag hk _ he) value
  simp [hn] at hc

theorem getLast?_append_ne {a b : List Char} {c : Char} (ha : a.getLast? ≠ some c)
    (hb : b.getLast? ≠ some c) : (a ++ b).getLast? ≠ some c := by
  rw [List.getLast?_append]
  cases h : b.getLast? with
  | none => exact ha
  | some d => simpa [h] using hb

theorem getLast?_markup {key : String} (hk : IsPlainName key) (value : Shown) :
    (value.markup mode key).toList.getLast? ≠ some '/' := by
  rcases markup_shown mode value hk with ⟨he, -⟩ | he
  · rw [he]
    exact fun hl => hk.not_mem rfl (List.mem_of_getLast? hl)
  · rw [he, Mode.quotedAttribute, String.toList_append, List.getLast?_append]
    exact (by decide : some '"' ≠ some '/')

/-- The slash that closes a tag is never taken from an attribute. -/
theorem getLast?_attributeText (hk : HasPlainKeys map?) :
    (tag.attributeText mode map?).toList.getLast? ≠ some '/' := by
  have hp := isPlainName_of_mem_shown tag hk
  rw [Tag.attributeText_eq, String.toList_join, List.flatMap_map]
  generalize tag.shown (map?.getD .empty) = shown at hp
  induction shown with
  | nil => simp
  | cons entry more ih =>
    obtain ⟨key, value⟩ := entry
    obtain ⟨hp, hm⟩ := List.forall_mem_cons.mp hp
    rw [List.flatMap_cons, String.toList_append]
    exact getLast?_append_ne (getLast?_append_ne (by decide) (getLast?_markup hp value)) (ih hm)

theorem readTag_start (hm : mode ≠ .sgml) (hn : IsPlainName tag.name) (hk : HasPlainKeys map?) :
    readTag (tag.name.toList ++ (tag.attributeText mode map?).toList) =
      some (if Tag.isVoidName tag.name then
          [.start tag.name (tag.attributes map?), .stop tag.name]
        else [.start tag.name (tag.attributes map?)]) := by
  have hs := readStart?_tag hm hn hk (List.forall_mem_nil _)
  rw [List.append_nil] at hs
  refine readTag_open (hn.head?_append_ne _) ?_ hs
  exact getLast?_append_ne (fun hl => hn.not_mem rfl (List.mem_of_getLast? hl))
    (getLast?_attributeText hk)

theorem readTag_closed (hm : mode ≠ .sgml) (hn : IsPlainName tag.name) (hk : HasPlainKeys map?) :
    readTag (tag.name.toList ++ ((tag.attributeText mode map?).toList ++ [' ', '/'])) =
      some [.start tag.name (tag.attributes map?), .stop tag.name] := by
  have blank : ∀ c ∈ [' '], Text.isBlank c = true := List.forall_mem_singleton.mpr rfl
  have hs := readStart?_tag hm hn hk blank
  have hb : tag.name.toList ++ ((tag.attributeText mode map?).toList ++ [' ', '/']) =
      tag.name.toList ++ ((tag.attributeText mode map?).toList ++ [' ']) ++ ['/'] := by
    simp
  rw [hb]
  refine readTag_selfClosing ?_ hs
  rw [List.append_assoc]
  exact hn.head?_append_ne _

/-! ## Markup -/

theorem scan_stop (rest : List Char) {name : String} (hn : IsPlainName name) :
    scan (("</" ++ name ++ ">").toList ++ rest) =
      (scan rest).map (Outline.addMark (.stop name)) := by
  have hi : '>' ∉ '/' :: name.toList := by
    simp [hn.not_mem (c := '>') rfl]
  have hr : readTag ('/' :: name.toList) = some [.stop name] := by
    simp [readTag]
  simpa using scan_tag rest hi hr

section Elements

variable (rest : List Char) (hm : mode ≠ .sgml) (hn : IsPlainName tag.name)
  (hk : HasPlainKeys map?)
include hm hn hk

theorem scan_start (hv : Tag.isVoidName tag.name = false) :
    scan (("<" ++ tag.name ++ tag.attributeText mode map? ++ ">").toList ++ rest) =
      (scan rest).map (Outline.addMark (.start tag.name (tag.attributes map?))) := by
  have hi : '>' ∉ tag.name.toList ++ (tag.attributeText mode map?).toList := by
    simp [hn.not_mem (c := '>') rfl, not_mem_attributeText hk]
  have hr := readTag_start hm hn hk
  rw [hv, if_neg Bool.false_ne_true] at hr
  simpa using scan_tag rest hi hr

theorem scan_childless :
    scan (("<" ++ tag.name ++ tag.attributeText mode map? ++
        mode.childlessEnd tag.name).toList ++ rest) =
      (scan rest).map
        (Outline.addMarks [.start tag.name (tag.attributes map?), .stop tag.name]) := by
  have hg := hn.not_mem (c := '>') rfl
  have ha : '>' ∉ (tag.attributeText mode map?).toList := not_mem_attributeText hk
  unfold Mode.childlessEnd
  by_cases hc : mode.isContainer tag.name = true
  · have hv : Tag.isVoidName tag.name = false := by
      simp only [Mode.isContainer, Bool.and_eq_true, Bool.not_eq_true'] at hc
      exact hc.2
    have hs := scan_start (("</" ++ tag.name ++ ">").toList ++ rest) hm hn hk hv
    rw [scan_stop rest hn, Option.map_map] at hs
    rw [if_pos hc]
    simpa using hs
  · rw [if_neg hc]
    by_cases hx : mode.isXml = true
    · have hi : '>' ∉ tag.name.toList ++ ((tag.attributeText mode map?).toList ++ [' ', '/']) := by
        simp [hg, ha]
      have hs := scan_tag rest hi (readTag_closed hm hn hk)
      rw [if_pos hx]
      simpa using hs
    · have hv : Tag.isVoidName tag.name = true := by
        cases mode <;> simp_all [Mode.isContainer, Mode.isHtml, Mode.isXml]
      have hi : '>' ∉ tag.name.toList ++ (tag.attributeText mode map?).toList := by
        simp [hg, ha]
      have hr := readTag_start hm hn hk
      rw [if_pos hv] at hr
      have hs := scan_tag rest hi hr
      rw [if_neg hx]
      simpa using hs

end Elements

end Tags

end Markup
