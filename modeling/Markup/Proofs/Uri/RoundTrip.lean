import Markup.Proofs.Text.Letters
import Markup.Proofs.Text.Spans
import Markup.Proofs.Uri.Splitting

set_option autoImplicit false

/-!
# URIs and their texts

A URI is the one that parsing reads from its text exactly if it is well formed: no part holds a
character that ends it, the scheme is a scheme in lower case, and the path cannot be taken for a
scheme or for an authority. Parsing makes only such URIs.
-/

namespace Markup.Uri

/-- A letter of some kind, then such letters, digits and the three signs that a scheme may have. -/
def IsSchemeOf (letter : Char → Bool) (text : List Char) : Prop :=
  ∃ c cs, text = c :: cs ∧ letter c = true ∧
    ∀ x ∈ cs, letter x = true ∨ x.isDigit = true ∨ x = '+' ∨ x = '.' ∨ x = '-'

/-- The part in front of the first colon of a text, if it has one, is no scheme. -/
def StartsNoScheme (text : List Char) : Prop :=
  ∀ before after, text = before ++ ':' :: after → ':' ∉ before → ¬ IsSchemeOf Char.isAlpha before

/-- The URIs that can be read back from their texts. -/
structure WellFormed (uri : Uri) : Prop where
  scheme : uri.scheme = "" ∨ IsSchemeOf Char.isLower uri.scheme.toList
  netloc : '/' ∉ uri.netloc.toList ∧ '?' ∉ uri.netloc.toList ∧ '#' ∉ uri.netloc.toList
  authority : uri.netloc = "" ∨ uri.hasAuthority = true
  rooted : uri.hasAuthority = true → uri.path = "" ∨ ['/'] <+: uri.path.toList
  unopened : uri.hasAuthority = false → ¬ ['/', '/'] <+: uri.path.toList
  path : '?' ∉ uri.path.toList ∧ '#' ∉ uri.path.toList
  query : '#' ∉ uri.query.toList
  unschemed : uri.scheme = "" → uri.hasAuthority = false → StartsNoScheme uri.path.toList

/-! ## Schemes -/

theorem isScheme_iff (text : List Char) : isScheme text = true ↔ IsSchemeOf Char.isAlpha text := by
  cases text with
  | nil => simp [isScheme, IsSchemeOf]
  | cons c cs =>
    simp only [isScheme, IsSchemeOf, isSchemeChar, Char.isAlphanum, Bool.and_eq_true,
      List.all_eq_true, List.mem_cons, Bool.or_eq_true, beq_iff_eq, List.cons.injEq]
    constructor
    · rintro ⟨hc, hcs⟩
      refine ⟨c, cs, ⟨rfl, rfl⟩, hc, fun x hx => ?_⟩
      have hx := hcs x (Or.inr hx)
      tauto
    · rintro ⟨_, _, ⟨rfl, rfl⟩, hc, hcs⟩
      refine ⟨hc, fun x hx => ?_⟩
      rcases hx with rfl | hx
      · exact Or.inl (Or.inl (Or.inl (Or.inl hc)))
      · have hx := hcs x hx
        tauto

theorem IsSchemeOf.ne_nil {letter : Char → Bool} {text : List Char} (h : IsSchemeOf letter text) :
    text ≠ [] := by
  obtain ⟨c, cs, rfl, -⟩ := h
  exact List.cons_ne_nil c cs

theorem IsSchemeOf.not_mem {letter : Char → Bool} {text : List Char} (h : IsSchemeOf letter text)
    {c : Char} (hl : letter c = false) (hd : c.isDigit = false)
    (hs : c ≠ '+' ∧ c ≠ '.' ∧ c ≠ '-') : c ∉ text := by
  obtain ⟨first, rest, rfl, hf, hr⟩ := h
  rw [List.mem_cons]
  rintro (rfl | hc)
  · rw [hl] at hf
    cases hf
  · have hc := hr c hc
    simp [hl, hd, hs] at hc

theorem IsSchemeOf.map_toLower {text : List Char} (h : IsSchemeOf Char.isAlpha text) :
    IsSchemeOf Char.isLower (text.map Char.toLower) := by
  obtain ⟨c, cs, rfl, hc, hcs⟩ := h
  refine ⟨c.toLower, cs.map Char.toLower, rfl, Text.isLower_toLower hc, fun x hx => ?_⟩
  obtain ⟨y, hy, rfl⟩ := List.mem_map.mp hx
  rcases hcs y hy with ha | hd | rfl | rfl | rfl
  · exact Or.inl (Text.isLower_toLower ha)
  · exact Or.inr (Or.inl (by rw [Text.toLower_of_isDigit hd]; exact hd))
  · decide
  · decide
  · decide

theorem IsSchemeOf.of_lower {text : List Char} (h : IsSchemeOf Char.isLower text) :
    IsSchemeOf Char.isAlpha text ∧ text.map Char.toLower = text := by
  obtain ⟨c, cs, rfl, hc, hcs⟩ := h
  refine ⟨⟨c, cs, rfl, Text.isAlpha_iff.mpr (Or.inr hc), fun x hx => ?_⟩, ?_⟩
  · exact (hcs x hx).imp_left fun hl => Text.isAlpha_iff.mpr (Or.inr hl)
  · have fixed : ∀ x ∈ cs, x.toLower = id x := by
      intro x hx
      rcases hcs x hx with hl | hd | rfl | rfl | rfl
      · exact Text.toLower_of_isLower hl
      · exact Text.toLower_of_isDigit hd
      all_goals rfl
    rw [List.map_cons, Text.toLower_of_isLower hc, List.map_congr_left fixed, List.map_id]

/-! ## What the splits find -/

theorem splitScheme_append {name : List Char} (after : List Char)
    (h : IsSchemeOf Char.isAlpha name) :
    splitScheme (name ++ ':' :: after) = (name.map Char.toLower, after) := by
  have clear : ':' ∉ name := h.not_mem rfl rfl (by decide)
  simp only [splitScheme, splitAt?_append_cons after clear, (isScheme_iff name).mpr h, if_true]

theorem splitScheme_of_startsNoScheme {text : List Char} (h : StartsNoScheme text) :
    splitScheme text = ([], text) := by
  unfold splitScheme
  cases hs : splitAt? ':' text with
  | none => rfl
  | some parts =>
    obtain ⟨name, after⟩ := parts
    obtain ⟨htext, clear⟩ := splitAt?_eq_some_iff.mp hs
    have hn : ¬ isScheme name = true := by
      rw [isScheme_iff]
      exact h name after htext clear
    simp only [hn, if_false, Bool.false_eq_true]

theorem startsNoScheme_slash (rest : List Char) : StartsNoScheme ('/' :: rest) := by
  intro before after ht _ h
  have hc : '/' ∉ before := h.not_mem rfl rfl (by decide)
  cases before with
  | nil => exact h.ne_nil rfl
  | cons c cs =>
    obtain ⟨rfl, -⟩ := List.cons.inj ht
    exact hc List.mem_cons_self

theorem startsNoScheme_or (text : List Char) : StartsNoScheme text ∨
    ∃ name after, text = name ++ ':' :: after ∧ IsSchemeOf Char.isAlpha name := by
  by_cases h : StartsNoScheme text
  · exact .inl h
  · unfold StartsNoScheme at h
    push Not at h
    obtain ⟨name, after, ht, -, hs⟩ := h
    exact .inr ⟨name, after, ht, hs⟩

theorem splitScheme_cases (text : List Char) :
    IsSchemeOf Char.isLower (splitScheme text).1 ∨
      (splitScheme text = ([], text) ∧ StartsNoScheme text) := by
  rcases startsNoScheme_or text with hn | ⟨name, after, rfl, h⟩
  · exact Or.inr ⟨splitScheme_of_startsNoScheme hn, hn⟩
  · rw [splitScheme_append after h]
    exact Or.inl h.map_toLower

theorem splitAuthority_of_not_opened {text : List Char} (h : ¬ ['/', '/'] <+: text) :
    splitAuthority text = (none, text) := by
  unfold splitAuthority
  split
  · next after => exact absurd ⟨after, rfl⟩ h
  · rfl

theorem splitAuthority_cases (text : List Char) :
    (splitAuthority text = (none, text) ∧ ¬ ['/', '/'] <+: text) ∨
      ∃ netloc location, splitAuthority text = (some netloc, location) ∧
        (∀ c ∈ netloc, endsAuthority c = false) ∧ ∀ c ∈ location.head?, endsAuthority c = true := by
  by_cases ho : ['/', '/'] <+: text
  · obtain ⟨after, rfl⟩ := ho
    refine Or.inr ⟨_, _, rfl, fun c hc => ?_, fun c hc => ?_⟩
    · simpa using List.mem_takeWhile_imp hc
    · simpa using Text.test_head_dropWhile hc
  · exact Or.inl ⟨splitAuthority_of_not_opened ho, ho⟩

theorem not_opened_append {front tail : List Char} (h : ¬ ['/', '/'] <+: front)
    (ht : '/' ∉ tail.head?) : ¬ ['/', '/'] <+: front ++ tail := by
  rintro ⟨after, ho⟩
  match front with
  | [] =>
    rw [List.nil_append] at ho
    exact ht (by rw [← ho]; rfl)
  | [c] =>
    rw [List.singleton_append] at ho
    exact ht (by rw [← (List.cons.inj ho).2]; rfl)
  | c :: d :: rest =>
    obtain ⟨rfl, hd⟩ := List.cons.inj ho
    obtain ⟨rfl, -⟩ := List.cons.inj hd
    exact h ⟨rest, rfl⟩

def pathOf (location : List Char) : List Char := (splitAt '?' (splitAt '#' location).1).1

def queryOf (location : List Char) : List Char := (splitAt '?' (splitAt '#' location).1).2

/-- A URI is read in three steps: the scheme, the authority, and what is left. -/
theorem parse_eq {text : String} {scheme hierarchy location : List Char}
    {authority? : Option (List Char)} (hs : splitScheme text.toList = (scheme, hierarchy))
    (ha : splitAuthority hierarchy = (authority?, location)) :
    parse text =
      { scheme := String.ofList scheme
        netloc := String.ofList (authority?.getD [])
        hasAuthority := authority?.isSome
        path := String.ofList (pathOf location)
        query := String.ofList (queryOf location)
        fragment := String.ofList (splitAt '#' location).2 } := by
  unfold parse
  rw [hs]
  dsimp only
  rw [ha]
  rfl

theorem splitAt_isPrefix (mark : Char) (text : List Char) : (splitAt mark text).1 <+: text := by
  obtain ⟨-, ⟨h, -⟩ | h⟩ := splitAt_parts mark text
  · exact ⟨[], by rw [List.append_nil, ← h]⟩
  · exact ⟨_, h.symm⟩

theorem pathOf_isPrefix (location : List Char) : pathOf location <+: location :=
  (splitAt_isPrefix '?' _).trans (splitAt_isPrefix '#' location)

theorem pathOf_clear (location : List Char) : '?' ∉ pathOf location ∧ '#' ∉ pathOf location := by
  refine ⟨(splitAt_parts '?' _).1, fun h => ?_⟩
  exact (splitAt_parts '#' location).1 ((splitAt_isPrefix '?' _).subset h)

theorem queryOf_clear (location : List Char) : '#' ∉ queryOf location := by
  intro h
  apply (splitAt_parts '#' location).1
  obtain ⟨-, ⟨-, hq⟩ | hq⟩ := splitAt_parts '?' (splitAt '#' location).1
  · rw [queryOf, hq] at h
    cases h
  · rw [hq]
    exact List.mem_append_right _ (List.mem_cons_of_mem _ h)

theorem pathOf_rooted {location : List Char} (h : ∀ c ∈ location.head?, endsAuthority c = true) :
    pathOf location = [] ∨ ['/'] <+: pathOf location := by
  obtain ⟨tail, ht⟩ := pathOf_isPrefix location
  obtain ⟨hq, hf⟩ := pathOf_clear location
  cases hp : pathOf location with
  | nil => exact Or.inl rfl
  | cons c cs =>
    rw [hp] at ht hq hf
    have hc : endsAuthority c = true := h c (by rw [← ht]; rfl)
    simp only [endsAuthority, Bool.or_eq_true, beq_iff_eq] at hc
    rcases hc with (rfl | rfl) | rfl
    · exact Or.inr ⟨cs, rfl⟩
    · exact absurd List.mem_cons_self hq
    · exact absurd List.mem_cons_self hf

theorem parse_wellFormed (text : String) : (parse text).WellFormed := by
  have hcases := splitScheme_cases text.toList
  generalize hs : splitScheme text.toList = parts at hcases
  obtain ⟨scheme, hierarchy⟩ := parts
  have hscheme : String.ofList scheme = "" ∨ IsSchemeOf Char.isLower scheme := by
    rcases hcases with h | ⟨h, -⟩
    · exact Or.inr h
    · exact Or.inl (String.ofList_eq_empty_iff.mpr (Prod.mk.inj h).1)
  rcases splitAuthority_cases hierarchy with ⟨ha, ho⟩ | ⟨netloc, location, ha, hn, hl⟩
  · rw [parse_eq hs ha]
    constructor <;> simp only [String.toList_ofList, Option.getD_none, Option.isSome_none]
    case scheme => exact hscheme
    case netloc => simp
    case authority => exact Or.inl trivial
    case rooted => simp
    case unopened => exact fun _ hp => ho (hp.trans (pathOf_isPrefix hierarchy))
    case path => exact pathOf_clear hierarchy
    case query => exact queryOf_clear hierarchy
    case unschemed =>
      intro hempty _ before after hp hb
      rcases hcases with h | ⟨h, hclear⟩
      · exact absurd (String.ofList_eq_empty_iff.mp hempty) h.ne_nil
      · obtain ⟨tail, ht⟩ := pathOf_isPrefix hierarchy
        apply hclear before (after ++ tail) ?_ hb
        rw [← (Prod.mk.inj h).2, ← ht, hp, List.append_assoc, List.cons_append]
  · rw [parse_eq hs ha]
    constructor <;> simp only [String.toList_ofList, Option.getD_some, Option.isSome_some]
    case scheme => exact hscheme
    case netloc =>
      refine ⟨fun h => ?_, fun h => ?_, fun h => ?_⟩ <;> exact absurd (hn _ h) (by decide)
    case authority => exact Or.inr trivial
    case rooted =>
      intro _
      rw [String.ofList_eq_empty_iff]
      exact pathOf_rooted hl
    case unopened => simp
    case path => exact pathOf_clear location
    case query => exact queryOf_clear location
    case unschemed => simp

/-! ## Reading a text back -/

def tailChars (uri : Uri) : List Char :=
  marked '?' uri.query.toList ++ marked '#' uri.fragment.toList

theorem tailChars_head {uri : Uri} {c : Char} (h : c ∈ uri.tailChars.head?) :
    c = '?' ∨ c = '#' := by
  by_cases hq : uri.query.toList = []
  · by_cases hf : uri.fragment.toList = []
    · simp [tailChars, marked, hq, hf] at h
    · have hc : '#' = c := by simpa [tailChars, marked, hq, hf] using h
      exact Or.inr hc.symm
  · have hc : '?' = c := by simpa [tailChars, marked, hq] using h
    exact Or.inl hc.symm

theorem toList_mark_append (mark : Char) (after : String) :
    (if after = "" then "" else String.singleton mark ++ after).toList =
      marked mark after.toList := by
  unfold marked
  simp only [String.toList_eq_nil_iff]
  split <;> simp

theorem text_toList (uri : Uri) : uri.text.toList =
    (if uri.scheme = "" then [] else uri.scheme.toList ++ [':']) ++
      (uri.authorityText.toList ++ (uri.path.toList ++ uri.tailChars)) := by
  have hq := toList_mark_append '?' uri.query
  have hf := toList_mark_append '#' uri.fragment
  have hs : (if uri.scheme = "" then "" else uri.scheme ++ ":").toList =
      if uri.scheme = "" then [] else uri.scheme.toList ++ [':'] := by
    split <;> simp
  unfold text tailChars
  rw [← hq, ← hf, ← hs]
  simp only [String.toList_append, List.append_assoc]
  rfl

namespace WellFormed

variable {uri : Uri} (h : uri.WellFormed)
include h

theorem pathOf_location : pathOf (uri.path.toList ++ uri.tailChars) = uri.path.toList ∧
    queryOf (uri.path.toList ++ uri.tailChars) = uri.query.toList ∧
    (splitAt '#' (uri.path.toList ++ uri.tailChars)).2 = uri.fragment.toList := by
  have clear : '#' ∉ uri.path.toList ++ marked '?' uri.query.toList := by
    unfold marked
    split
    · simpa using h.path.2
    · simpa using ⟨h.path.2, h.query⟩
  have hf : splitAt '#' (uri.path.toList ++ uri.tailChars) =
      (uri.path.toList ++ marked '?' uri.query.toList, uri.fragment.toList) := by
    rw [tailChars, ← List.append_assoc]
    exact splitAt_append_marked _ clear
  have hq := splitAt_append_marked uri.query.toList h.path.1
  simp only [pathOf, queryOf, hf, hq, and_self]

theorem location_head (ha : uri.hasAuthority = true) {c : Char}
    (hc : c ∈ (uri.path.toList ++ uri.tailChars).head?) : endsAuthority c = true := by
  rcases h.rooted ha with hp | ⟨rest, hp⟩
  · rw [hp] at hc
    rcases tailChars_head hc with rfl | rfl <;> rfl
  · rw [← hp] at hc
    cases hc
    rfl

theorem location_not_opened (ha : uri.hasAuthority = false) :
    ¬ ['/', '/'] <+: uri.path.toList ++ uri.tailChars := by
  refine not_opened_append (h.unopened ha) fun hc => ?_
  rcases tailChars_head hc with he | he <;> exact absurd he (by decide)

theorem authorityText_of_authority (ha : uri.hasAuthority = true) :
    uri.authorityText.toList = '/' :: '/' :: uri.netloc.toList := by
  have hr : uri.path = "" ∨ isRooted uri.path = true :=
    (h.rooted ha).imp_right List.isPrefixOf_iff_prefix.mpr
  simp [authorityText, ha, hr]

theorem authorityText_of_none (ha : uri.hasAuthority = false) : uri.authorityText.toList = [] := by
  have hn : uri.netloc = "" := h.authority.resolve_right (Bool.not_eq_true _ ▸ ha)
  have hp : opensAuthority uri.path = false := by
    rw [← Bool.not_eq_true, opensAuthority, List.isPrefixOf_iff_prefix]
    exact h.unopened ha
  simp [authorityText, ha, hn, hp]

theorem splitAuthority_text :
    splitAuthority (uri.authorityText.toList ++ (uri.path.toList ++ uri.tailChars)) =
      (if uri.hasAuthority then some uri.netloc.toList else none,
        uri.path.toList ++ uri.tailChars) := by
  cases ha : uri.hasAuthority with
  | true =>
    have clear : ∀ c ∈ uri.netloc.toList, (!endsAuthority c) = true := by
      intro c hc
      obtain ⟨h₁, h₂, h₃⟩ := h.netloc
      simp [endsAuthority, ne_of_mem_of_not_mem hc h₁, ne_of_mem_of_not_mem hc h₂,
        ne_of_mem_of_not_mem hc h₃]
    have stop : ∀ c ∈ (uri.path.toList ++ uri.tailChars).head?, (!endsAuthority c) = false := by
      intro c hc
      rw [h.location_head ha hc]
      rfl
    rw [h.authorityText_of_authority ha]
    simp only [List.cons_append, splitAuthority, if_true,
      Text.takeWhile_append_of_stop clear stop, Text.dropWhile_append_of_stop clear stop]
  | false =>
    rw [h.authorityText_of_none ha, List.nil_append,
      splitAuthority_of_not_opened (h.location_not_opened ha)]
    rfl

theorem location_startsNoScheme (hs : uri.scheme = "") (ha : uri.hasAuthority = false) :
    StartsNoScheme (uri.path.toList ++ uri.tailChars) := by
  intro before after ht hb hscheme
  have hcolon : ':' ∉ uri.tailChars.head? := by
    intro hc
    rcases tailChars_head hc with he | he <;> exact absurd he (by decide)
  rcases List.append_eq_append_iff.mp ht with ⟨rest, hbefore, htail⟩ | ⟨rest, hpath, htail⟩
  · -- A name that reaches behind the path would hold the mark that stands there.
    cases rest with
    | nil => exact hcolon (by rw [htail]; rfl)
    | cons c cs =>
      have hc : c ∈ before := by simp [hbefore]
      rcases tailChars_head (c := c) (by rw [htail]; rfl) with rfl | rfl
      · exact hscheme.not_mem rfl rfl (by decide) hc
      · exact hscheme.not_mem rfl rfl (by decide) hc
  · cases rest with
    | nil => exact hcolon (by rw [← List.nil_append uri.tailChars, ← htail]; rfl)
    | cons c cs =>
      obtain ⟨rfl, -⟩ := List.cons.inj htail
      exact h.unschemed hs ha before cs hpath hb hscheme

theorem splitScheme_text : splitScheme uri.text.toList =
    (uri.scheme.toList, uri.authorityText.toList ++ (uri.path.toList ++ uri.tailChars)) := by
  rw [text_toList]
  by_cases hs : uri.scheme = ""
  · rw [if_pos hs, List.nil_append, hs]
    apply splitScheme_of_startsNoScheme
    cases ha : uri.hasAuthority with
    | true =>
      rw [h.authorityText_of_authority ha]
      exact startsNoScheme_slash _
    | false =>
      rw [h.authorityText_of_none ha]
      exact h.location_startsNoScheme hs ha
  · have hl : IsSchemeOf Char.isLower uri.scheme.toList := h.scheme.resolve_left hs
    rw [if_neg hs, List.append_assoc, List.singleton_append, splitScheme_append _ hl.of_lower.1,
      hl.of_lower.2]

theorem parse_text : parse uri.text = uri := by
  obtain ⟨hp, hq, hf⟩ := h.pathOf_location
  rw [parse_eq h.splitScheme_text h.splitAuthority_text, hp, hq, hf]
  obtain ⟨scheme, netloc, hasAuthority, path, query, fragment⟩ := uri
  cases hasAuthority with
  | true => simp
  | false =>
    have hn : netloc = "" := h.authority.resolve_right Bool.false_ne_true
    simp [hn]

end WellFormed

/-- Exactly the well-formed URIs are read back from their texts, and only they are ever read. -/
theorem parse_text_eq_iff_wellFormed :
    (∀ uri : Uri, parse uri.text = uri ↔ uri.WellFormed) ∧
      (∀ text : String, (parse text).WellFormed) ∧
        ∀ text : String, parse (parse text).text = parse text := by
  refine ⟨fun uri => ⟨fun h => ?_, WellFormed.parse_text⟩, parse_wellFormed, fun text => ?_⟩
  · rw [← h]
    exact parse_wellFormed uri.text
  · exact (parse_wellFormed text).parse_text

end Markup.Uri
