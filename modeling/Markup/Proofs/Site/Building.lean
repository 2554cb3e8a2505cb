import Markup.Proofs.Site.Rebasing
import Markup.Proofs.Uri.FormData
import Markup.Proofs.Uri.RoundTrip
import Markup.Site.Context

set_option autoImplicit false

/-!
# Built URLs

A URL is built as a text and then read as a URI. The question mark in front of the query ends
whatever part of the URI the joined parts leave open, be it a scheme, a host or a path, so the query
is read as the query, and the rest as if there were none.
-/

namespace Markup

/-! ## A query behind a text -/

namespace Uri

/-- The colon of a scheme does not stand behind a question mark, since no scheme holds one. -/
theorem startsNoScheme_append {text : List Char} (h : StartsNoScheme text) (query : List Char) :
    StartsNoScheme (text ++ '?' :: query) := by
  intro before after ht hb hs
  rcases List.append_eq_append_iff.mp ht with ⟨more, rfl, hq⟩ | ⟨more, rfl, hq⟩
  · have clear : '?' ∉ text ++ more := hs.not_mem rfl rfl (by decide)
    cases more with
    | nil => exact absurd (List.cons.inj hq).1 (by decide)
    | cons c cs =>
      rw [← (List.cons.inj hq).1] at clear
      exact clear (List.mem_append_right text List.mem_cons_self)
  · cases more with
    | nil => exact absurd (List.cons.inj hq).1 (by decide)
    | cons c cs =>
      rw [← (List.cons.inj hq).1] at h
      exact h before cs rfl hb hs

theorem splitScheme_append_query (text query : List Char) :
    splitScheme (text ++ '?' :: query) =
      ((splitScheme text).1, (splitScheme text).2 ++ '?' :: query) := by
  rcases startsNoScheme_or text with h | ⟨name, after, rfl, hs⟩
  · rw [splitScheme_of_startsNoScheme h,
      splitScheme_of_startsNoScheme (startsNoScheme_append h query)]
  · rw [List.append_assoc, List.cons_append, splitScheme_append _ hs, splitScheme_append _ hs]

theorem splitAuthority_append_query (text query : List Char) :
    splitAuthority (text ++ '?' :: query) =
      ((splitAuthority text).1, (splitAuthority text).2 ++ '?' :: query) := by
  by_cases h : ['/', '/'] <+: text
  · obtain ⟨after, rfl⟩ := h
    have ht : (after ++ '?' :: query).takeWhile (!endsAuthority ·) =
        after.takeWhile (!endsAuthority ·) := Text.takeWhile_append_cons_of_stop rfl
    have hd : (after ++ '?' :: query).dropWhile (!endsAuthority ·) =
        after.dropWhile (!endsAuthority ·) ++ '?' :: query := Text.dropWhile_append_cons_of_stop rfl
    simp only [List.cons_append, List.nil_append, splitAuthority, ht, hd]
  · have hq : '/' ∉ ('?' :: query).head? := by simp
    rw [splitAuthority_of_not_opened h, splitAuthority_of_not_opened (not_opened_append h hq)]

theorem splitScheme_suffix (text : List Char) : (splitScheme text).2 <:+ text := by
  rcases startsNoScheme_or text with h | ⟨name, after, rfl, hs⟩
  · have he : (splitScheme text).2 = text := by rw [splitScheme_of_startsNoScheme h]
    exact ⟨[], he⟩
  · rw [splitScheme_append _ hs]
    exact ⟨name ++ [':'], by simp⟩

theorem splitAuthority_suffix (text : List Char) : (splitAuthority text).2 <:+ text := by
  unfold splitAuthority
  split
  · next after => exact (List.dropWhile_suffix _).trans ⟨['/', '/'], rfl⟩
  · exact List.suffix_rfl

section Clear

variable {text : String} (hq : '?' ∉ text.toList) (hf : '#' ∉ text.toList)
include hq hf

theorem location_clear :
    let location := (splitAuthority (splitScheme text.toList).2).2
    '?' ∉ location ∧ '#' ∉ location := by
  intro location
  have hs : location <:+ text.toList := (splitAuthority_suffix _).trans (splitScheme_suffix _)
  exact ⟨fun h => hq (hs.subset h), fun h => hf (hs.subset h)⟩

theorem parse_of_clear : (parse text).query = "" ∧ (parse text).fragment = "" := by
  obtain ⟨hq, hf⟩ := location_clear hq hf
  rw [parse_eq (Prod.eta _).symm (Prod.eta _).symm]
  simp only [queryOf, splitAt_eq_self hf, splitAt_eq_self hq, String.ofList_nil, and_self]

theorem parse_append_query {query : String} (hc : '#' ∉ query.toList) :
    parse (text ++ "?" ++ query) = { parse text with query := query } := by
  obtain ⟨hq, hf⟩ := location_clear hq hf
  have ht : (text ++ "?" ++ query).toList = text.toList ++ '?' :: query.toList := by simp
  have hs := splitScheme_append_query text.toList query.toList
  rw [← ht] at hs
  rw [parse_eq hs (splitAuthority_append_query _ _), parse_eq (Prod.eta _).symm (Prod.eta _).symm]
  generalize (splitAuthority (splitScheme text.toList).2).2 = location at hq hf
  have hl : '#' ∉ location ++ '?' :: query.toList := by simp [hf, hc]
  simp only [pathOf, queryOf, splitAt_eq_self hl, splitAt_eq_self hf, splitAt_eq_self hq,
    splitAt_append_cons _ hq, String.ofList_toList]

end Clear

end Uri

/-! ## Built URLs -/

theorem Context.parse_joinUrl {parts : List String} (hq : '?' ∉ (String.join parts).toList)
    (hf : '#' ∉ (String.join parts).toList) (charset : Charset) (query : List (String × String)) :
    Uri.parse (joinUrl charset parts query) =
      { Uri.parse (String.join parts) with query := Query.encode charset query } := by
  unfold joinUrl
  dsimp only
  by_cases he : Query.encode charset query = ""
  · have hp := (Uri.parse_of_clear hq hf).1
    rw [if_pos he, String.append_empty, he]
    generalize Uri.parse (String.join parts) = bare at hp
    rw [← hp]
  · have hc : '#' ∉ (Query.encode charset query).toList :=
      Query.not_mem_encode charset query (by decide) (by decide)
    rw [if_neg he, ← String.append_assoc, Uri.parse_append_query hq hf hc]

theorem Context.rebase_keeps (context : Context) (uri : Uri) :
    (context.rebase uri).scheme = uri.scheme ∧ (context.rebase uri).netloc = uri.netloc ∧
      (context.rebase uri).hasAuthority = uri.hasAuthority ∧
      (context.rebase uri).fragment = uri.fragment := by
  unfold rebase
  split <;> exact ⟨rfl, rfl, rfl, rfl⟩

theorem Context.rebase_query (context : Context) (uri : Uri) (query : String) :
    context.rebase { uri with query := query } = { context.rebase uri with query := query } := by
  unfold rebase
  split <;> rfl

theorem Query.encode_eq_empty_iff (charset : Charset) (pairs : List (String × String)) :
    encode charset pairs = "" ↔ pairs = [] := by
  refine ⟨fun h => ?_, ?_⟩
  · by_contra hn
    exact encode_ne_empty charset hn h
  · rintro rfl
    rfl

/-- A URL built from parts without question mark and hash is the link that the parts make, with the
    encoded pairs as its query and everything else as the parts alone have it. Without a character
    set there is none. -/
theorem built_url_query (context : Context) (charsets : Charsets) (parts : List String)
    (query : List (String × String)) :
    (∀ charset, charsets.ofLabel? context.encoding = some charset →
      '?' ∉ (String.join parts).toList → '#' ∉ (String.join parts).toList →
      let bare := Uri.parse (String.join parts)
      let encoded := Query.encode charset query
      ∃ uri, context.url charsets parts query = .ok uri ∧
        uri = context.rebase { bare with query := encoded } ∧
        uri = { context.uriOf (String.join parts) with query := encoded } ∧
        (uri.scheme = bare.scheme ∧ uri.netloc = bare.netloc ∧
          uri.hasAuthority = bare.hasAuthority ∧ uri.fragment = "") ∧
        (uri.query = "" ↔ query = []) ∧
        (charset.IsUtf8 → Query.decode? uri.query = some query)) ∧
    (charsets.ofLabel? context.encoding = none →
      context.url charsets parts query = .error (.unknownEncoding context.encoding)) := by
  constructor
  · intro charset hc hq hf bare encoded
    have hr : context.rebase { bare with query := encoded } =
        { context.uriOf (String.join parts) with query := encoded } :=
      context.rebase_query bare encoded
    refine ⟨_, ?_, rfl, hr, ?_, ?_, ?_⟩
    · rw [Context.url_of_known hc, Context.uriOf, Context.parse_joinUrl hq hf]
    · obtain ⟨hs, hn, ha, hx⟩ := context.rebase_keeps { bare with query := encoded }
      exact ⟨hs, hn, ha, hx.trans (Uri.parse_of_clear hq hf).2⟩
    · rw [hr]
      exact Query.encode_eq_empty_iff charset query
    · intro hu
      rw [hr]
      exact Query.decode?_encode hu query
  · exact fun hn => Context.url_of_unknown hn parts query

/-- A query behind a host and a port, with all the characters that could end it, and the same below
    a label that names nothing. -/
theorem built_url_query_port :
    let context : Context := { baseUrl := "/app" }
    let charsets : Charsets := ⟨fun label => if label = "UTF-8" then some .utf8 else none⟩
    let parts := ["//example.com", ":8080"]
    let query := [("a:b", "/?#"), ("", "&=%20")]
    charsets.ofLabel? context.encoding = some .utf8 ∧ Charset.utf8.IsUtf8 ∧
      '?' ∉ (String.join parts).toList ∧ '#' ∉ (String.join parts).toList ∧
      (∃ uri, context.url charsets parts query = .ok uri ∧ uri.netloc = "example.com:8080" ∧
        uri.fragment = "" ∧ Query.decode? uri.query = some query) ∧
      let other : Context := { encoding := "klingon" }
      charsets.ofLabel? other.encoding = none ∧
        other.url charsets parts query = .error (.unknownEncoding "klingon") := by
  intro context charsets parts query
  have hc : charsets.ofLabel? context.encoding = some .utf8 := rfl
  have hq : '?' ∉ (String.join parts).toList := by decide
  have hf : '#' ∉ (String.join parts).toList := by decide
  obtain ⟨uri, hu, -, -, ⟨-, hn, -, hx⟩, -, hd⟩ :=
    (built_url_query context charsets parts query).1 .utf8 hc hq hf
  have hp : (Uri.parse (String.join parts)).netloc = "example.com:8080" := by decide
  refine ⟨hc, Charset.isUtf8_utf8, hq, hf,
    ⟨uri, hu, hn.trans hp, hx, hd Charset.isUtf8_utf8⟩, ?_⟩
  intro other
  have ho : charsets.ofLabel? other.encoding = none := rfl
  exact ⟨ho, (built_url_query other charsets parts query).2 ho⟩

end Markup
