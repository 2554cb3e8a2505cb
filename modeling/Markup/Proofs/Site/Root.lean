import Markup.Proofs.Render.AttributeText
import Markup.Proofs.Render.Elements
import Markup.Site.Page

set_option autoImplicit false

/-!
# The root of a page

The root element of a page shows the attributes that the page brings along, updated by those of the
caller. An HTML5 page without a language drops one that the caller has set.
-/

namespace Markup

theorem AttrValue.shown?_eq_none_iff {value : AttrValue} :
    value.shown? = none ↔ value.isFalsy = true := by
  by_cases ht : value = .scalar (.bool true)
  · subst ht
    simp [shown?, isFalsy, Scalar.isFalsy]
  · rw [shown?_eq ht]
    split
    · next hf => simp [hf]
    · next hf => cases value <;> simp_all [text?, isFalsy]

theorem AttrValue.exists_shown (mode : Mode) (key : String) {value : AttrValue}
    (h : value.isFalsy = false) :
    ∃ shown, value.shown? = some shown ∧ shown.markup mode key = value.written mode key := by
  have hw : mode.attribute? key value = some (value.written mode key) :=
    attribute?_eq_some_iff.mpr ⟨h, rfl⟩
  rw [attribute?_eq_map_shown?] at hw
  exact Option.map_eq_some_iff.mp hw

namespace Page

inductive Kind where
  | html4
  | xhtml
  | html5
  | xhtml5
deriving DecidableEq, Repr

namespace Kind

def mode : Kind → Mode
  | .html4 => .sgml
  | .xhtml => .xhtml
  | .html5 => .html
  | .xhtml5 => .xml

def build (scope : Scope) (caller? : Option Attrs) (content : Node) : Kind → Except Error Node
  | .html4 => Page.html4 caller? content
  | .xhtml => Page.xhtml scope caller? none content
  | .html5 => Page.html5 scope caller? none false content
  | .xhtml5 => Page.html5 scope caller? none true content

def declarations (scope : Scope) : Kind → List String
  | .html4 => [Doctype.html4.declaration]
  | .xhtml => [xmlText, Doctype.xhtmlStrict.declaration]
  | .html5 => [Doctype.html5.declaration]
  | .xhtml5 => [xmlText, Doctype.html5.declaration]
where
  xmlText := "<?xml version=\"1.0\" encoding=\"" ++ scope.context.encoding ++ "\"?>\n"

/-- The attributes that a page without a language brings along for its root. -/
def own : Kind → Attrs
  | .html4 => .empty
  | .html5 => .ofPairs [("lang", .null)]
  | .xhtml | .xhtml5 =>
    .ofPairs [("xmlns", .str "http://www.w3.org/1999/xhtml"), ("xml:lang", .null), ("lang", .null)]

def kept (caller : Attrs) : Kind → Attrs
  | .html5 => caller.erase "lang"
  | _ => caller

end Kind

def rootTag : Tag := .ofName "html"

def rootMarkup (mode : Mode) (shown : List (String × Shown)) (inside : String) : String :=
  "<html" ++ mode.attributesOf shown ++ ">" ++ inside ++ "</html>"

theorem render_root (options : RenderOptions) {rest : List Node} {map? : Option Attrs}
    {content : Node} (hs : Node.splitAttrs rest = (map?, [content])) :
    render options [.list (.text "html" :: rest)] = (render options [content]).map
      (rootMarkup options.mode (rootTag.shown (map?.getD .empty))) := by
  have hd : (Node.list (.text "html" :: rest)).descriptor? = some rootTag :=
    (by decide : Tag.parse? "html" = some rootTag)
  have hv : Tag.isVoidName rootTag.name = false := by decide
  rw [render_element options hd hs, hv, Bool.false_and, if_neg Bool.false_ne_true,
    Tag.attributeText_eq_attributesOf]
  congr 1
  funext inside
  have hn : rootTag.name = "html" := rfl
  simp [Tag.markup_of_children, rootMarkup, hn, String.append_assoc]

theorem prerender_declared (options : RenderOptions) (declarations : List String)
    {root content : Node} {markup : String → String}
    (hr : render options [root] = (render options [content]).map markup) :
    prerender options (declarations.map Node.raw ++ [root]) =
      (render options [content]).map fun inside =>
        .raw (String.join declarations ++ markup inside) := by
  have hd : render options (declarations.map Node.raw) = .ok (String.join declarations) := by
    induction declarations with
    | nil => exact render_nil options
    | cons first rest ih =>
      rw [List.map_cons, render_cons, render_raw, ih, String.join_cons]
      rfl
  rw [prerender, render_append, hd, hr]
  cases render options [content] <;> rfl

theorem render_root_elementWith (options : RenderOptions) (map : Attrs) (content : Node) :
    render options [.elementWith "html" map [content]] =
      (render options [content]).map (rootMarkup options.mode (rootTag.shown map)) := by
  have hs : Node.splitAttrs [.attrs map, content] = (some map, [content]) := rfl
  have hr := render_root options hs
  rwa [Option.getD_some] at hr

theorem sameValues_set_lang (caller : Attrs) : (caller.set "lang" .null).SameValues
    (Kind.html5.own.update (Kind.html5.kept caller)) := by
  intro key
  have ho : Kind.html5.own = Attrs.empty.set "lang" .null := rfl
  rw [Attrs.get?_update, Kind.kept, Attrs.get?_erase, ho, Attrs.set, Attrs.set, Attrs.get?_insert,
    Attrs.get?_insert]
  by_cases hk : key = "lang"
  · subst hk
    simp
  · simp [hk, Ne.symm hk]

theorem xhtmlDocument_eq (scope : Scope) (mode : Mode) (doctype : Doctype) (caller? : Option Attrs)
    (content : Node) : xhtmlDocument scope mode doctype caller? none content =
      (render { mode } [content]).map fun inside =>
        .raw (String.join [Kind.declarations.xmlText scope, doctype.declaration] ++
          rootMarkup mode (rootTag.shown (Kind.xhtml.own.update (caller?.getD .empty)))
            inside) := by
  apply prerender_declared _ [_, _]
  rw [xhtmlRoot, Node.mergeAttrs_elementWith, render_root_elementWith]
  rfl

/-- A page is its declarations and the root around its content. The root has the attributes that
    the page brings along, updated by what is kept of those of the caller. -/
theorem build_eq (scope : Scope) (caller? : Option Attrs) {content : Node}
    (hc : content.isAttrs = false) (kind : Kind) : kind.build scope caller? content =
      (render { mode := kind.mode } [content]).map fun inside =>
        .raw (String.join (kind.declarations scope) ++ rootMarkup kind.mode
          (rootTag.shown (kind.own.update (kind.kept (caller?.getD .empty)))) inside) := by
  cases kind with
  | html4 =>
    have hn : Node.splitAttrs [content] = (none, [content]) :=
      Node.splitAttrs_of_none (Node.splitAttrs_cons_eq_none_iff.mpr hc)
    obtain ⟨map?, others, he, hs, hm⟩ := Node.mergeAttrs_list (.text "html") hn caller?
    have hr := render_root { mode := .sgml } hs
    rw [hm, ← he] at hr
    exact prerender_declared _ [Doctype.html4.declaration] hr
  | xhtml => exact xhtmlDocument_eq scope .xhtml .xhtmlStrict caller? content
  | xhtml5 => exact xhtmlDocument_eq scope .xml .html5 caller? content
  | html5 =>
    -- the missing language is set on the map of the caller, not on one of the page
    have hr := render_root_elementWith { mode := .html }
      ((caller?.getD .empty).set "lang" .null) content
    rw [rootTag.shown_congr (sameValues_set_lang _)] at hr
    exact prerender_declared _ [Doctype.html5.declaration] hr

/-! ## The attributes of the caller -/

section Caller

variable (kind : Kind) (caller : Attrs)

theorem get?_kept {key : String} (hk : kind = .html5 → key ≠ "lang") :
    (kind.kept caller).get? key = caller.get? key := by
  cases kind with
  | html5 => rw [Kind.kept, Attrs.get?_erase, if_neg (hk rfl)]
  | html4 | xhtml | xhtml5 => rfl

theorem attributesOf_kept_iff :
    kind.mode.attributesOf (rootTag.shown (kind.own.update (kind.kept caller))) =
        kind.mode.attributesOf (rootTag.shown (kind.own.update caller)) ↔
      (kind = .html5 → ∀ value, caller.get? "lang" = some value → value.isFalsy = true) := by
  cases kind with
  | html4 | xhtml | xhtml5 => simp [Kind.kept]
  | html5 =>
    have hl (map : Attrs) : rootTag.shown? (Kind.html5.own.update map) "lang" =
        (map.get? "lang").bind AttrValue.shown? := by
      rw [rootTag, Tag.shown?_ofName _ (by decide), Attrs.get?_update]
      cases map.get? "lang" <;> rfl
    have hk : rootTag.shown? (Kind.html5.own.update (Kind.html5.kept caller)) "lang" = none := by
      rw [hl, Kind.kept, Attrs.get?_erase, if_pos rfl]
      rfl
    have ho (other : String) (hn : other ≠ "lang") :
        rootTag.shown? (Kind.html5.own.update (Kind.html5.kept caller)) other =
          rootTag.shown? (Kind.html5.own.update caller) other := by
      apply Tag.shown?_ofName_congr
      rw [Attrs.get?_update, Attrs.get?_update, get?_kept .html5 caller fun _ => hn]
    rw [Tag.attributesOf_hidden_iff hk ho, hl]
    simp [Option.bind_eq_none_iff, AttrValue.shown?_eq_none_iff]

theorem exists_mem_shown_root {key : String} {value : AttrValue}
    (hk : kind = .html5 → key ≠ "lang") (hc : key ≠ "class") (hv : caller.get? key = some value)
    (hf : value.isFalsy = false) :
    ∃ content, (key, content) ∈ rootTag.shown (kind.own.update (kind.kept caller)) ∧
      content.markup kind.mode key = value.written kind.mode key := by
  obtain ⟨content, hs, hw⟩ := AttrValue.exists_shown kind.mode key hf
  refine ⟨content, ?_, hw⟩
  rw [Tag.mem_shown_iff, rootTag, Tag.shown?_ofName _ hc, Attrs.get?_update,
    get?_kept kind caller hk, hv]
  exact hs

theorem class_mem_shown_root (hc : caller.classText ≠ "") :
    ("class", .quoted caller.classText) ∈
      rootTag.shown (kind.own.update (kind.kept caller)) := by
  have hm : Tag.mapClasses (kind.own.update (kind.kept caller)) = caller.classText := by
    cases hg : caller.get? "class" with
    | none => exact absurd (by rw [Attrs.classText, hg]) hc
    | some value =>
      rw [← mapClasses_eq_classText, Tag.mapClasses, Tag.mapClasses, Attrs.get?_update,
        get?_kept kind caller fun _ => by decide, hg, Option.some_or]
  rw [Tag.mem_shown_iff, rootTag, Tag.shown?_ofName_class, hm, if_neg hc]

end Caller

/-- A page renders like its content, with declarations and the root around it. The attributes of the
    root are those that the page brings along, updated by those of the caller, exactly if it is not
    an HTML5 page for which the caller has a language. All others that the caller has are among
    them. -/
theorem page_root_attributes (scope : Scope) (kind : Kind) (caller? : Option Attrs) {content : Node}
    (hc : content.isAttrs = false) :
    let caller := caller?.getD .empty
    let text (map : Attrs) := rootTag.attributeText kind.mode (some map)
    ∃ shown : List (String × Shown), Ascending shown ∧
      (kind.build scope caller? content = (render { mode := kind.mode } [content]).map fun inside =>
        .raw (String.join (kind.declarations scope) ++ rootMarkup kind.mode shown inside)) ∧
      kind.mode.attributesOf shown = text (kind.own.update (kind.kept caller)) ∧
      (kind.mode.attributesOf shown = text (kind.own.update caller) ↔
        (kind = .html5 → ∀ value, caller.get? "lang" = some value → value.isFalsy = true)) ∧
      (∀ key value, caller.get? key = some value → value.isFalsy = false →
        (kind = .html5 → key ≠ "lang") → key ≠ "class" →
          ∃ content, (key, content) ∈ shown ∧
            content.markup kind.mode key = value.written kind.mode key) ∧
      (caller.classText ≠ "" → ("class", .quoted caller.classText) ∈ shown) := by
  intro caller text
  have ht (map : Attrs) : text map = kind.mode.attributesOf (rootTag.shown map) :=
    Tag.attributeText_eq_attributesOf kind.mode rootTag (some map)
  refine ⟨_, Tag.ascending_shown _ _, build_eq scope caller? hc kind, (ht _).symm, ?_, ?_,
    class_mem_shown_root kind caller⟩
  · rw [ht]
    exact attributesOf_kept_iff kind caller
  · intro key value hv hf hl hk
    exact exists_mem_shown_root kind caller hl hk hv hf

theorem page_root_attributes_french :
    let caller : Attrs := .ofPairs [("lang", .str "fr"), ("class", .str "wide")]
    let content : Node := .element "body" [.text "Salut"]
    content.isAttrs = false ∧ ∃ shown, Kind.xhtml.build {} (some caller) content =
        (render { mode := .xhtml } [content]).map (fun inside =>
          .raw (String.join (Kind.xhtml.declarations {}) ++ rootMarkup .xhtml shown inside)) ∧
      (∃ content, ("lang", content) ∈ shown ∧ content.markup .xhtml "lang" = "lang=\"fr\"") ∧
      ("class", .quoted "wide") ∈ shown := by
  intro caller content
  have hc : content.isAttrs = false := rfl
  obtain ⟨shown, -, hb, -, -, hs, hk⟩ := page_root_attributes {} .xhtml (some caller) hc
  exact ⟨hc, shown, hb, hs "lang" (.str "fr") rfl rfl nofun (by decide), hk (by decide)⟩

/-- The language that a caller gives an HTML5 page is lost. -/
theorem page_root_attributes_lost :
    ¬ ∀ (scope : Scope) (kind : Kind) (caller : Attrs) (content : Node), content.isAttrs = false →
      kind.build scope (some caller) content =
        (render { mode := kind.mode } [content]).map fun inside =>
          .raw (String.join (kind.declarations scope) ++ "<html" ++
            rootTag.attributeText kind.mode (some (kind.own.update caller)) ++ ">" ++ inside ++
              "</html>") := by
  intro h
  let caller : Attrs := .ofPairs [("lang", .str "fr")]
  have hx := h {} .html5 caller (.raw "") rfl
  rw [build_eq {} (some caller) rfl, render_raw, Tag.attributeText_eq_attributesOf,
    Option.getD_some, Option.getD_some] at hx
  have hr := Node.raw.inj (Except.ok.inj hx)
  simp only [rootMarkup, String.append_assoc, String.append_right_inj,
    String.append_left_inj] at hr
  have hl := (attributesOf_kept_iff .html5 caller).mp hr rfl (.str "fr") rfl
  exact absurd hl (by decide)

end Page

end Markup
