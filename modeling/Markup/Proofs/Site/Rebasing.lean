import Markup.Proofs.Uri.RoundTrip
import Markup.Site.Context

set_option autoImplicit false

/-!
# Links below a base URL

The base URL goes in front of the path of a link, if the path is rooted and there is no host. The
text of a rooted link without scheme and authority then starts with the base URL, unless that starts
with two slashes: such a path is kept from being read as an authority by two more. A link with a
scheme but no host is not spared.
-/

namespace Markup

namespace Uri

theorem isRooted_iff {text : String} :
    isRooted text = true ↔ ∃ rest, text.toList = '/' :: rest := by
  rw [isRooted, List.isPrefixOf_iff_prefix]
  exact exists_congr fun rest => eq_comm

theorem opensAuthority_iff {text : String} :
    opensAuthority text = true ↔ ['/', '/'] <+: text.toList :=
  List.isPrefixOf_iff_prefix

theorem opens_append_iff {front rest : List Char} (h : ¬ ['/', '/'] <+: '/' :: rest) :
    ['/', '/'] <+: front ++ '/' :: rest ↔ ['/', '/'] <+: front ++ ['/'] := by
  match front with
  | [] => simpa using h
  | [c] => simp [List.cons_prefix_cons]
  | c :: d :: more => simp [List.cons_prefix_cons]

theorem opens_append_slash_iff {front : List Char} (h : ¬ ['/'] <:+ front) :
    ['/', '/'] <+: front ++ ['/'] ↔ ['/', '/'] <+: front := by
  match front with
  | [] => simp
  | [c] =>
    have hc : ¬ '/' = c := fun he => h (he ▸ List.suffix_rfl)
    simp [List.cons_prefix_cons, hc]
  | c :: d :: more => simp [List.cons_prefix_cons]

theorem text_of_path {uri : Uri} (hs : uri.scheme = "") (ha : uri.hasAuthority = false)
    (hn : uri.netloc = "") :
    uri.text = (if opensAuthority uri.path then "//" else "") ++ uri.path ++
      (if uri.query = "" then "" else "?" ++ uri.query) ++
      (if uri.fragment = "" then "" else "#" ++ uri.fragment) := by
  simp [text, authorityText, hs, ha, hn]

end Uri

namespace Context

variable (context : Context)

theorem base_cases : context.baseUrl = context.base ++ "/" ∨
    context.base = context.baseUrl ∧ ¬ ['/'] <:+ context.baseUrl.toList := by
  unfold base
  split
  · next rest h =>
    left
    have hr := congrArg List.reverse h
    rw [List.reverse_reverse, List.reverse_cons] at hr
    rw [← String.toList_inj, hr]
    simp
  · next hn =>
    refine Or.inr ⟨rfl, ?_⟩
    rintro ⟨front, h⟩
    apply hn front.reverse
    rw [← h, List.reverse_append]
    rfl

theorem opensAuthority_base :
    ['/', '/'] <+: context.base.toList ++ ['/'] ↔ Uri.opensAuthority context.baseUrl = true := by
  rw [Uri.opensAuthority_iff]
  rcases context.base_cases with h | ⟨h, hn⟩
  · rw [h, String.toList_append]
    rfl
  · rw [h]
    exact Uri.opens_append_slash_iff hn

theorem rebase_rooted {uri : Uri} (hn : uri.netloc = "") (hr : Uri.isRooted uri.path = true) :
    context.rebase uri = { uri with path := context.base ++ uri.path } := by
  unfold rebase
  by_cases hb : context.base = ""
  · rw [if_neg (by simp [hb]), hb, String.empty_append]
  · rw [if_pos ⟨hb, hn, hr⟩]

theorem rebase_of_not_rooted {uri : Uri} (h : ¬ (uri.netloc = "" ∧ Uri.isRooted uri.path = true)) :
    context.rebase uri = uri :=
  if_neg fun hc => h hc.2

end Context

theorem Context.opensAuthority_base_append (context : Context) {path : String}
    (hr : Uri.isRooted path = true) (hu : ¬ ['/', '/'] <+: path.toList) :
    Uri.opensAuthority (context.base ++ path) = Uri.opensAuthority context.baseUrl := by
  obtain ⟨rest, hp⟩ := Uri.isRooted_iff.mp hr
  rw [hp] at hu
  rw [Bool.eq_iff_iff, Uri.opensAuthority_iff, String.toList_append, hp, Uri.opens_append_iff hu,
    context.opensAuthority_base]

theorem Context.text_rebase (context : Context) {uri : Uri} (hw : uri.WellFormed)
    (hs : uri.scheme = "") (ha : uri.hasAuthority = false) (hr : Uri.isRooted uri.path = true) :
    (context.rebase uri).text =
      (if Uri.opensAuthority context.baseUrl then "//" else "") ++ (context.base ++ uri.text) := by
  have hn : uri.netloc = "" := hw.authority.resolve_right (by simp [ha])
  have hu := hw.unopened ha
  have hp : Uri.opensAuthority uri.path = false := by
    rwa [← Bool.not_eq_true, Uri.opensAuthority_iff]
  have ht : { uri with path := context.base ++ uri.path }.text = _ := Uri.text_of_path hs ha hn
  rw [context.rebase_rooted hn hr, ht, Uri.text_of_path hs ha hn]
  simp [context.opensAuthority_base_append hr hu, hp, String.append_assoc]

/-- The text of a rooted link without scheme and authority is, in a context, its own text with the
    base URL in front, and two slashes in front of both if the base URL starts with two. So the base
    URL is where the text starts exactly if it does not start with two slashes. -/
theorem text_rooted_link (context : Context) {link : String} (hs : (Uri.parse link).scheme = "")
    (ha : (Uri.parse link).hasAuthority = false)
    (hr : Uri.isRooted (Uri.parse link).path = true) :
    (context.uriOf link).text =
        (if Uri.opensAuthority context.baseUrl then "//" else "") ++
          (context.base ++ (Uri.parse link).text) ∧
      ((context.uriOf link).text = context.base ++ (Uri.parse link).text ↔
        Uri.opensAuthority context.baseUrl = false) := by
  have ht : (context.uriOf link).text = _ :=
    context.text_rebase (Uri.parse_wellFormed link) hs ha hr
  refine ⟨ht, ?_⟩
  rw [ht]
  cases Uri.opensAuthority context.baseUrl with
  | false => simp
  | true =>
    have hl (more : String) : "//" ++ more ≠ more := by
      intro h
      have hn := congrArg String.length h
      simp at hn
    simp [hl]

theorem text_rooted_link_search :
    let context : Context := { baseUrl := "http://example.com/app/" }
    let link := "/search?q=x#top"
    (Uri.parse link).scheme = "" ∧ (Uri.parse link).hasAuthority = false ∧
      Uri.isRooted (Uri.parse link).path = true ∧
      (context.uriOf link).text = "http://example.com/app" ++ (Uri.parse link).text := by
  intro context link
  have hs : (Uri.parse link).scheme = "" := by decide
  have ha : (Uri.parse link).hasAuthority = false := by decide
  have hr : Uri.isRooted (Uri.parse link).path = true := by decide
  have hb : context.base = "http://example.com/app" := by decide
  have h := (text_rooted_link context hs ha hr).2.mpr (by decide)
  rw [hb] at h
  exact ⟨hs, ha, hr, h⟩

/-- Two slashes too many stand in front of a host without a scheme. -/
theorem text_rooted_link_host :
    ¬ ∀ (context : Context) (link : String), (Uri.parse link).scheme = "" →
      (Uri.parse link).hasAuthority = false → Uri.isRooted (Uri.parse link).path = true →
        (context.uriOf link).text = context.base ++ (Uri.parse link).text := by
  intro h
  have hx := h { baseUrl := "//cdn.example.com" } "/x" rfl rfl rfl
  have ht : (Context.uriOf { baseUrl := "//cdn.example.com" } "/x").text =
    "////cdn.example.com/x" := rfl
  rw [ht] at hx
  exact absurd hx (by decide)

theorem Context.rebase_eq_self_iff (context : Context) {uri : Uri} : context.rebase uri = uri ↔
    uri.netloc ≠ "" ∨ Uri.isRooted uri.path = false ∨ context.base = "" := by
  by_cases hc : uri.netloc = "" ∧ Uri.isRooted uri.path = true
  · have hb : context.base ++ uri.path = uri.path ↔ context.base = "" := by
      rw [← String.toList_inj, String.toList_append, List.append_left_eq_self,
        String.toList_eq_nil_iff]
    have hu : { uri with path := context.base ++ uri.path } = uri ↔ context.base = "" := by
      refine ⟨fun h => hb.mp (congrArg Uri.path h), fun h => ?_⟩
      rw [hb.mpr h]
    rw [context.rebase_rooted hc.1 hc.2, hu]
    simp [hc]
  · rw [context.rebase_of_not_rooted hc]
    simp only [true_iff]
    by_cases hn : uri.netloc = ""
    · exact Or.inr (Or.inl (Bool.eq_false_iff.mpr fun hr => hc ⟨hn, hr⟩))
    · exact Or.inl hn

/-- A URI with a scheme or a host stays as it is in a context, unless it has no host, its path is
    rooted and there is a base URL. Then it has a scheme, and the base URL goes in front of its
    path; the other parts stay. -/
theorem rebase_absolute (context : Context) {uri : Uri} (h : uri.isRelative = false) :
    (context.rebase uri = uri ↔
        uri.netloc ≠ "" ∨ Uri.isRooted uri.path = false ∨ context.base = "") ∧
      (context.rebase uri ≠ uri →
        uri.scheme ≠ "" ∧ context.rebase uri = { uri with path := context.base ++ uri.path }) ∧
      context.toUri (.uri uri) = .ok (context.rebase uri) := by
  refine ⟨context.rebase_eq_self_iff, fun hx => ?_, rfl⟩
  rw [Ne, context.rebase_eq_self_iff] at hx
  push Not at hx
  obtain ⟨hn, hr, -⟩ := hx
  refine ⟨fun hs => ?_, context.rebase_rooted hn (Bool.not_eq_false _ ▸ hr)⟩
  simp [Uri.isRelative, hs, hn] at h

/-- A file below a host of no name gets a base URL into its path. -/
theorem rebase_absolute_file :
    let context : Context := { baseUrl := "/app" }
    let uri : Uri := { scheme := "file", hasAuthority := true, path := "/etc/hosts" }
    uri.isRelative = false ∧ context.rebase uri = { uri with path := "/app/etc/hosts" } := by
  intro context uri
  have h : uri.isRelative = false := by decide
  have hx : context.rebase uri ≠ uri := by
    rw [Ne, (rebase_absolute context h).1]
    decide
  have hp : context.base ++ uri.path = "/app/etc/hosts" := by decide
  rw [← hp]
  exact ⟨h, ((rebase_absolute context h).2.1 hx).2⟩

/-- A scheme alone does not keep a URI from being changed. -/
theorem rebase_absolute_scheme : ¬ ∀ (context : Context) (uri : Uri), uri.isRelative = false →
    context.rebase uri = uri ∧ context.toUri (.uri uri) = .ok uri := by
  intro h
  have hx := h { baseUrl := "/app" }
    { scheme := "file", hasAuthority := true, path := "/etc/hosts" } (by decide)
  exact absurd hx.1 (by decide)

end Markup
