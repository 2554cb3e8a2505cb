import Markup.Proofs.Render.Elements
import Markup.Proofs.Site.Rebasing
import Markup.Site.Content
import Markup.Site.Form
import Markup.Site.Page

set_option autoImplicit false

/-!
# Links to built URLs

A URL that is built in a context has its base URL in front already, and a link to it puts it there
again. That shows in the text only if the base URL is rooted itself, so that the result still looks
like a rooted path without a host.
-/

namespace Markup

/-! ## Elements that link -/

def Node.Shows (node : Node) (name key text : String) : Prop :=
  ∃ shown : List (String × Shown), Ascending shown ∧ (key, .quoted text) ∈ shown ∧
    ∀ options : RenderOptions, ∃ more : String → String,
      render options [node] = (render options node.contents).map fun inside =>
        "<" ++ name ++ options.mode.attributesOf shown ++ more inside

/-- The elements of a scope that link to a URI, by their names and the keys that hold it. The
    attributes of the caller have nothing for the key. -/
inductive Linked (scope : Scope) (uri : Uri) : String → String → Node → Prop
  | link {attrs? : Option Attrs} (content : Node) (ha : (attrs?.getD .empty).get? "href" = none) :
    Linked scope uri "a" "href" (Content.link scope attrs? uri content)
  | image {attrs? : Option Attrs} (alt? : Option String)
    (ha : (attrs?.getD .empty).get? "src" = none) :
    Linked scope uri "img" "src" (Content.image scope attrs? uri alt?)
  | script {sources : List Uri} {items : List Node} {node : Node} {i : Nat}
    (hp : Page.scripts scope sources = .seq items) (hs : sources[i]? = some uri)
    (hi : items[i]? = some node) : Linked scope uri "script" "src" node
  | style {sources : List Uri} {items : List Node} {node : Node} {i : Nat}
    (hp : Page.styles scope sources = .seq items) (hs : sources[i]? = some uri)
    (hi : items[i]? = some node) : Linked scope uri "link" "href" node
  | form {attrs? : Option Attrs} (method : String) (body : List Node)
    (ha : (attrs?.getD .empty).get? "action" = none) :
    Linked scope uri "form" "action" (Form.form scope attrs? method uri body)

section Shows

variable {name key : String} (ht : Tag.parse? name = some (.ofName name)) {children : List Node}
  (hv : Tag.isVoidName name = false ∨ children = []) (hk : key ≠ "class") {map : Attrs} {uri : Uri}
  (hu : map.get? key = some (.uri uri))
include ht hv hk hu

theorem Node.shows_elementWith : (elementWith name map children).Shows name key uri.text := by
  refine ⟨(Tag.ofName name).shown map, Tag.ascending_shown _ map, ?_, fun options =>
    ⟨_, render_elementWith options ht map hv⟩⟩
  rw [Tag.mem_shown_iff, Tag.shown?_ofName name hk, hu]
  rfl

theorem Node.shows_mergeAttrs {more? : Option Attrs} (hm : (more?.getD .empty).get? key = none) :
    ((elementWith name map children).mergeAttrs more?).Shows name key uri.text := by
  rw [mergeAttrs_elementWith]
  apply shows_elementWith ht hv hk
  rw [Attrs.get?_update, hm, hu]
  rfl

end Shows

theorem eq_of_item {build : Uri → Node} {sources : List Uri} {items : List Node} {uri : Uri}
    {node : Node} {i : Nat} (hp : Node.seq (sources.map build) = .seq items)
    (hs : sources[i]? = some uri) (hi : items[i]? = some node) : build uri = node := by
  rw [← Node.seq.inj hp, List.getElem?_map, hs] at hi
  exact Option.some.inj hi

theorem Linked.shows {scope : Scope} {uri : Uri} {name key : String} {node : Node}
    (h : Linked scope uri name key node) :
    node.Shows name key (scope.context.rebase uri).text := by
  cases h with
  | link content ha =>
    exact Node.shows_mergeAttrs (by decide) (.inl (by decide)) (by decide) rfl ha
  | image alt? ha =>
    exact Node.shows_mergeAttrs (by decide) (.inr rfl) (by decide) rfl ha
  | form method body ha =>
    exact Node.shows_mergeAttrs (by decide) (.inl (by decide)) (by decide) rfl ha
  | script hp hs hi =>
    rw [← eq_of_item hp hs hi]
    exact Node.shows_elementWith (by decide) (.inr rfl) (by decide) rfl
  | style hp hs hi =>
    rw [← eq_of_item hp hs hi]
    exact Node.shows_elementWith (by decide) (.inr rfl) (by decide) rfl

/-! ## The base URL put in front twice -/

namespace Uri

theorem isRooted_append {base path : String} (h : isRooted base = true) :
    isRooted (base ++ path) = true := by
  obtain ⟨rest, hb⟩ := isRooted_iff.mp h
  exact isRooted_iff.mpr ⟨rest ++ path.toList, by rw [String.toList_append, hb, List.cons_append]⟩

theorem ne_empty_of_isRooted {base : String} (h : isRooted base = true) : base ≠ "" := by
  rintro rfl
  exact absurd h (by decide)

theorem isRooted_of_append {base path : String} (hb : base ≠ "")
    (h : isRooted (base ++ path) = true) : isRooted base = true := by
  obtain ⟨rest, hr⟩ := isRooted_iff.mp h
  rw [String.toList_append] at hr
  cases hl : base.toList with
  | nil => exact absurd (String.toList_eq_nil_iff.mp hl) hb
  | cons c more =>
    rw [hl, List.cons_append, List.cons.injEq] at hr
    exact isRooted_iff.mpr ⟨more, hl.trans (by rw [hr.1])⟩

theorem opens_append_append {base path : String} (hb : isRooted base = true)
    (hr : isRooted path = true) :
    opensAuthority (base ++ (base ++ path)) = opensAuthority (base ++ path) := by
  obtain ⟨more, hb⟩ := isRooted_iff.mp hb
  obtain ⟨rest, hr⟩ := isRooted_iff.mp hr
  rw [Bool.eq_iff_iff, opensAuthority_iff, opensAuthority_iff, String.toList_append,
    String.toList_append, hb, hr]
  -- a base of one slash opens an authority with any slash behind it, and a longer one on its own
  cases more <;> simp [List.cons_prefix_cons]

theorem text_prepend_ne {uri : Uri} {base path : String} (hb : isRooted base = true)
    (hr : isRooted path = true) (hp : uri.path = base ++ path) :
    { uri with path := base ++ uri.path }.text ≠ uri.text := by
  have ho : opensAuthority (base ++ uri.path) = opensAuthority uri.path := by
    rw [hp, opens_append_append hb hr]
  have hu : isRooted uri.path = true := hp ▸ isRooted_append hb
  have ha : { uri with path := base ++ uri.path }.authorityText = uri.authorityText := by
    simp only [authorityText, ho, hu, isRooted_append hb, or_true]
  intro h
  rw [text, text, ha] at h
  simp only [String.append_assoc, String.append_right_inj] at h
  exact ne_empty_of_isRooted hb (String.append_eq_right_iff.mp h)

end Uri

namespace Context

variable (context : Context)

/-- Where the base URL goes in front a second time: it is rooted, and so is the path of a URI
    without a host. -/
def Doubles (uri : Uri) : Prop :=
  Uri.isRooted context.base = true ∧ uri.netloc = "" ∧ Uri.isRooted uri.path = true

variable {context} {uri : Uri}

theorem rebase_rebase_of_doubles (h : context.Doubles uri) :
    context.rebase (context.rebase uri) =
      { context.rebase uri with path := context.base ++ (context.rebase uri).path } := by
  obtain ⟨hb, hn, hr⟩ := h
  have hu := context.rebase_rooted hn hr
  apply context.rebase_rooted
  · rw [hu]
    exact hn
  · rw [hu]
    exact Uri.isRooted_append hb

theorem rebase_rebase_of_not_doubles (h : ¬ context.Doubles uri) :
    context.rebase (context.rebase uri) = context.rebase uri := by
  by_cases hc : uri.netloc = "" ∧ Uri.isRooted uri.path = true
  · rw [context.rebase_eq_self_iff, context.rebase_rooted hc.1 hc.2]
    by_cases hb : context.base = ""
    · exact .inr (.inr hb)
    · refine .inr (.inl (Bool.eq_false_iff.mpr fun hr => h ⟨?_, hc⟩))
      exact Uri.isRooted_of_append hb hr
  · rw [context.rebase_of_not_rooted hc, context.rebase_of_not_rooted hc]

theorem text_rebase_rebase_iff :
    (context.rebase (context.rebase uri)).text = (context.rebase uri).text ↔
      ¬ context.Doubles uri := by
  refine ⟨fun ht h => ?_, fun h => by rw [rebase_rebase_of_not_doubles h]⟩
  rw [rebase_rebase_of_doubles h] at ht
  refine Uri.text_prepend_ne h.1 h.2.2 ?_ ht
  rw [context.rebase_rooted h.2.1 h.2.2]

theorem rebase_rebase_iff :
    context.rebase (context.rebase uri) = context.rebase uri ↔ ¬ context.Doubles uri :=
  ⟨fun h => text_rebase_rebase_iff.mp (congrArg Uri.text h), rebase_rebase_of_not_doubles⟩

end Context

/-- A link to a built URL shows what a context makes of that URL. It is the same text, and the same
    URI, exactly if the base URL is not rooted or the parts give a URI that has a host or a path
    that is not rooted. Otherwise the base URL stands in front of the path twice. -/
theorem built_url_linked (scope : Scope) (charsets : Charsets) {charset : Charset}
    (hc : charsets.ofLabel? scope.context.encoding = some charset) (parts : List String)
    (query : List (String × String)) :
    let context := scope.context
    let target := Uri.parse (Context.joinUrl charset parts query)
    ∃ uri, context.url charsets parts query = .ok uri ∧
      (∀ name key node, Linked scope uri name key node →
        node.Shows name key (context.rebase uri).text) ∧
      ((context.rebase uri).text = uri.text ↔ ¬ context.Doubles target) ∧
      (context.rebase uri = uri ↔ ¬ context.Doubles target) ∧
      (context.Doubles target →
        context.rebase uri = { uri with path := context.base ++ uri.path }) := by
  intro context target
  exact ⟨_, Context.url_of_known hc parts query, fun _ _ _ h => h.shows, Context.text_rebase_rebase_iff, Context.rebase_rebase_iff,
    Context.rebase_rebase_of_doubles⟩

/-- Below a base URL with a host, a link to a built URL shows that URL. -/
theorem built_url_linked_host :
    let scope : Scope := { context := { baseUrl := "http://example.com/app/" } }
    let charsets : Charsets := ⟨fun label => if label = "UTF-8" then some .utf8 else none⟩
    charsets.ofLabel? scope.context.encoding = some .utf8 ∧
      ∃ uri, scope.context.url charsets ["/search"] [("q", "x")] = .ok uri ∧
        (Content.link scope none uri (.text "Search")).Shows "a" "href" uri.text := by
  intro scope charsets
  have hc : charsets.ofLabel? scope.context.encoding = some .utf8 := rfl
  obtain ⟨uri, hu, hs, ht, -⟩ := built_url_linked scope charsets hc ["/search"] [("q", "x")]
  have hd : ¬ scope.context.Doubles (Uri.parse (Context.joinUrl .utf8 ["/search"] [("q", "x")])) :=
    fun h => absurd h.1 (by decide)
  refine ⟨hc, uri, hu, ?_⟩
  rw [← ht.mpr hd]
  exact hs _ _ _ (.link _ rfl)

/-- Below a rooted base URL, a link to a built URL shows that base URL twice. -/
theorem built_url_linked_twice :
    let charsets : Charsets := ⟨fun label => if label = "UTF-8" then some .utf8 else none⟩
    ¬ ∀ (context : Context) (charset : Charset) (parts : List String)
      (query : List (String × String)) (uri : Uri),
      charsets.ofLabel? context.encoding = some charset →
        context.url charsets parts query = .ok uri → (context.rebase uri).text = uri.text := by
  intro charsets h
  have hx := h { baseUrl := "/app" } .utf8 ["/x"] [] { path := "/app/x" } rfl rfl
  exact absurd hx (by decide)

end Markup
