import Mathlib.Data.List.Basic
import Markup.Render.Escape

set_option autoImplicit false

/-!
# Reading escaped text

Escaped text has none of the characters that bound tags and values, and replacing its entities in
one pass gives the text back. What follows the text does not matter, since every entity ends by
itself.
-/

namespace Markup

/-! ## Character by character -/

def Mode.escapeChar (mode : Mode) (c : Char) : List Char :=
  if c = '&' then "&amp;".toList
  else if c = '<' then "&lt;".toList
  else if c = '>' then "&gt;".toList
  else if c = '"' then "&quot;".toList
  else if c = '\x27' then mode.apostropheEntity.toList
  else [c]

theorem replaceApostrophes_quotableChar (mode : Mode) (c : Char) :
    mode.replaceApostrophes (quotableChar c) = mode.escapeChar c := by
  -- the entities of the first pass have no apostrophe for the second one to replace
  by_cases hm : c = '&' ∨ c = '<' ∨ c = '>' ∨ c = '"'
  · rcases hm with rfl | rfl | rfl | rfl <;> rfl
  · simp only [not_or] at hm
    simp [quotableChar, Mode.escapeChar, hm, Mode.replaceApostrophes]

/-- The two passes come to one: every character is written by itself. -/
theorem toList_escape (mode : Mode) (text : String) :
    (mode.escape text).toList = text.toList.flatMap mode.escapeChar := by
  have hc (c : Char) : ((quotableChar c).flatMap fun c =>
      if c = '\x27' then mode.apostropheEntity.toList else [c]) = mode.escapeChar c :=
    replaceApostrophes_quotableChar mode c
  rw [Mode.escape, String.toList_ofList, Mode.replaceApostrophes, quotable, List.flatMap_assoc]
  simp only [hc]

/-! ## Entities -/

/-- The characters that are escaped, with what stands for them in a dialect with the given entity
    for the apostrophe. -/
def entities (apostrophe : String) : List (Char × String) :=
  [('&', "&amp;"), ('<', "&lt;"), ('>', "&gt;"), ('"', "&quot;"), ('\x27', apostrophe)]

def readEntity? (apostrophe : String) (text : List Char) : Option (Char × List Char) :=
  (entities apostrophe).findSome? fun entity =>
    if entity.2 = "" then none else (entity.2.toList.isPrefixOf? text).map (entity.1, ·)

theorem isPrefixOf?_eq_some {front text after : List Char}
    (h : front.isPrefixOf? text = some after) : text = front ++ after := by
  induction front generalizing text with
  | nil => simpa [List.isPrefixOf?] using h
  | cons c cs ih =>
    cases text with
    | nil => simp [List.isPrefixOf?] at h
    | cons d ds =>
      simp only [List.isPrefixOf?, Option.ite_none_right_eq_some, beq_iff_eq] at h
      rw [h.1, ih h.2, List.cons_append]

theorem length_readEntity? {apostrophe : String} {text after : List Char} {c : Char}
    (h : readEntity? apostrophe text = some (c, after)) : after.length < text.length := by
  obtain ⟨entity, -, he⟩ := List.exists_of_findSome?_eq_some h
  split at he
  · cases he
  · next hn =>
    obtain ⟨rest, hr, hp⟩ := Option.map_eq_some_iff.mp he
    cases hp
    have hl : 0 < entity.2.toList.length := by
      rw [List.length_pos_iff]
      simpa using hn
    rw [isPrefixOf?_eq_some hr, List.length_append]
    omega

/-- Replaces entities by their characters, in one pass from left to right. -/
def unescape (apostrophe : String) : List Char → List Char
  | [] => []
  | c :: rest =>
    match _h : readEntity? apostrophe (c :: rest) with
    | some (d, after) => d :: unescape apostrophe after
    | none => c :: unescape apostrophe rest
termination_by text => text.length
decreasing_by
  · exact length_readEntity? _h
  · exact Nat.lt_succ_self _

@[simp] theorem unescape_nil (apostrophe : String) : unescape apostrophe [] = [] := by
  rw [unescape]

theorem unescape_of_readEntity? {apostrophe : String} {text after : List Char} {c : Char}
    (h : readEntity? apostrophe text = some (c, after)) :
    unescape apostrophe text = c :: unescape apostrophe after := by
  cases text with
  | nil => exact absurd (length_readEntity? h) (Nat.not_lt_zero _)
  | cons d rest =>
    rw [unescape]
    split
    · next e more he =>
      rw [h] at he
      cases he
      rfl
    · next he =>
      rw [h] at he
      cases he

theorem unescape_cons {apostrophe : String} {c : Char} {rest : List Char}
    (h : readEntity? apostrophe (c :: rest) = none) :
    unescape apostrophe (c :: rest) = c :: unescape apostrophe rest := by
  rw [unescape]
  split
  · next d after he =>
    rw [h] at he
    cases he
  · rfl

theorem readEntity?_eq_none (mode : Mode) {c : Char} (h : c ≠ '&') (rest : List Char) :
    readEntity? mode.apostropheEntity (c :: rest) = none := by
  -- every entity starts with an ampersand
  have hc : ¬ '&' = c := fun he => h he.symm
  cases mode <;> simp [readEntity?, entities, Mode.apostropheEntity, List.isPrefixOf?, hc]

theorem readEntity?_entity (mode : Mode) {c : Char} {entity : String}
    (h : (c, entity) ∈ entities mode.apostropheEntity) (rest : List Char) :
    readEntity? mode.apostropheEntity (entity.toList ++ rest) = some (c, rest) := by
  simp only [entities, List.mem_cons, Prod.mk.injEq, List.not_mem_nil, or_false] at h
  rcases h with ⟨rfl, rfl⟩ | ⟨rfl, rfl⟩ | ⟨rfl, rfl⟩ | ⟨rfl, rfl⟩ | ⟨rfl, rfl⟩
  all_goals cases mode <;> rfl

theorem escapeChar_cases (mode : Mode) (c : Char) :
    (∃ entity, (c, entity) ∈ entities mode.apostropheEntity ∧
        mode.escapeChar c = entity.toList) ∨
      c ∉ (entities mode.apostropheEntity).map Prod.fst ∧ mode.escapeChar c = [c] := by
  by_cases hc : c ∈ (entities mode.apostropheEntity).map Prod.fst
  · left
    simp only [entities, List.map_cons, List.map_nil, List.mem_cons, List.not_mem_nil,
      or_false] at hc
    rcases hc with rfl | rfl | rfl | rfl | rfl
    all_goals exact ⟨_, by simp [entities], rfl⟩
  · right
    refine ⟨hc, ?_⟩
    simp only [entities, List.map_cons, List.map_nil, List.mem_cons, List.not_mem_nil, or_false,
      not_or] at hc
    simp [Mode.escapeChar, hc]

theorem unescape_escapeChar (mode : Mode) (c : Char) (rest : List Char) :
    unescape mode.apostropheEntity (mode.escapeChar c ++ rest) =
      c :: unescape mode.apostropheEntity rest := by
  rcases escapeChar_cases mode c with ⟨entity, he, hc⟩ | ⟨hn, hc⟩
  · rw [hc, unescape_of_readEntity? (readEntity?_entity mode he rest)]
  · have ha : c ≠ '&' := by
      rintro rfl
      exact hn (List.mem_cons_self ..)
    rw [hc, List.singleton_append, unescape_cons (readEntity?_eq_none mode ha rest)]

theorem unescape_escape_append (mode : Mode) (text : String) (rest : List Char) :
    unescape mode.apostropheEntity ((mode.escape text).toList ++ rest) =
      text.toList ++ unescape mode.apostropheEntity rest := by
  rw [toList_escape]
  induction text.toList with
  | nil => rfl
  | cons c cs ih =>
    rw [List.flatMap_cons, List.append_assoc, unescape_escapeChar, ih, List.cons_append]

theorem unescape_escape (mode : Mode) (text : String) :
    unescape mode.apostropheEntity (mode.escape text).toList = text.toList := by
  simpa using unescape_escape_append mode text []

/-! ## Structural characters -/

def isStructural (c : Char) : Bool := c == '<' || c == '>' || c == '"' || c == '\x27'

theorem isStructural_of_mem_escapeChar {mode : Mode} {c d : Char} (h : d ∈ mode.escapeChar c) :
    isStructural d = false := by
  rcases escapeChar_cases mode c with ⟨entity, he, hc⟩ | ⟨hn, hc⟩
  · rw [hc] at h
    have clear : ∀ pair ∈ entities mode.apostropheEntity,
        pair.2.toList.all (!isStructural ·) = true := by
      cases mode <;> decide
    simpa using List.all_eq_true.mp (clear _ he) d h
  · rw [hc, List.mem_singleton] at h
    subst h
    simp only [entities, List.map_cons, List.map_nil, List.mem_cons, List.not_mem_nil, or_false,
      not_or] at hn
    simp [isStructural, hn]

theorem isStructural_of_mem_escape {mode : Mode} {text : String} {c : Char}
    (h : c ∈ (mode.escape text).toList) : isStructural c = false := by
  rw [toList_escape, List.mem_flatMap] at h
  obtain ⟨d, -, hc⟩ := h
  exact isStructural_of_mem_escapeChar hc

/-! ## Whole texts -/

theorem escape_append (mode : Mode) (a b : String) :
    mode.escape (a ++ b) = mode.escape a ++ mode.escape b := by
  rw [← String.toList_inj]
  simp only [toList_escape, String.toList_append, List.flatMap_append]

theorem escape_injective (mode : Mode) : Function.Injective mode.escape := by
  intro a b h
  rw [← String.toList_inj, ← unescape_escape mode a, h, unescape_escape]

theorem exists_entity_of_escapeChar {mode : Mode} {c : Char} {before after : List Char}
    (h : mode.escapeChar c = before ++ '&' :: after) :
    ∃ entity ∈ entities mode.apostropheEntity, entity.2.toList = '&' :: after := by
  rcases escapeChar_cases mode c with ⟨entity, he, hc⟩ | ⟨hn, hc⟩
  · -- an entity has its ampersand in front and no other
    have headed : ∀ pair ∈ entities mode.apostropheEntity, '&' ∉ pair.2.toList.tail := by
      cases mode <;> decide
    have hs : entity.toList = before ++ '&' :: after := hc.symm.trans h
    cases before with
    | nil => exact ⟨_, he, hs⟩
    | cons d ds =>
      have ht := headed _ he
      rw [hs] at ht
      exact absurd (List.mem_append_right ds List.mem_cons_self) ht
  · have hm : '&' ∈ mode.escapeChar c := h ▸ List.mem_append_right before List.mem_cons_self
    rw [hc, List.mem_singleton] at hm
    exact absurd (hm ▸ List.mem_cons_self) hn

theorem exists_entity_of_ampersand {mode : Mode} {text before after : List Char}
    (h : text.flatMap mode.escapeChar = before ++ '&' :: after) :
    ∃ entity ∈ entities mode.apostropheEntity, entity.2.toList <+: '&' :: after := by
  induction text generalizing before with
  | nil => simp at h
  | cons c cs ih =>
    rw [List.flatMap_cons, List.append_eq_append_iff] at h
    rcases h with ⟨more, -, hm⟩ | ⟨more, hc, hm⟩
    · exact ih hm
    · cases more with
      | nil => exact @ih [] hm.symm
      | cons d ds =>
        obtain ⟨rfl, -⟩ := List.cons.inj hm
        obtain ⟨entity, he, hp⟩ := exists_entity_of_escapeChar hc
        exact ⟨entity, he, cs.flatMap mode.escapeChar, by rw [hp, hm]⟩

/-- Escaping is safe, lossless and compositional: escaped text has no brackets and quotes, every
    ampersand in it begins an entity of the mode, the text can be read back from it in one pass,
    and texts escaped one after the other are escaped together. -/
theorem escape_safe_and_lossless (mode : Mode) :
    (∀ text, ∀ c ∈ ['<', '>', '"', '\x27'], c ∉ (mode.escape text).toList) ∧
      (∀ text before after, (mode.escape text).toList = before ++ '&' :: after →
        ∃ entity ∈ entities mode.apostropheEntity, entity.2.toList <+: '&' :: after) ∧
      (∀ text, unescape mode.apostropheEntity (mode.escape text).toList = text.toList) ∧
      Function.Injective mode.escape ∧
      ∀ a b, mode.escape (a ++ b) = mode.escape a ++ mode.escape b := by
  refine ⟨?_, ?_, unescape_escape mode, escape_injective mode, escape_append mode⟩
  · intro text c hc hm
    have structural : ['<', '>', '"', '\x27'].all isStructural = true := by decide
    have hs := List.all_eq_true.mp structural c hc
    rw [isStructural_of_mem_escape hm] at hs
    exact Bool.false_ne_true hs
  · intro text before after h
    rw [toList_escape] at h
    exact exists_entity_of_ampersand h

/-- An entity that is there already is escaped like other text. -/
example : Mode.sgml.escape "&lt; it's" = "&amp;lt; it&#39;s" := by decide

end Markup
