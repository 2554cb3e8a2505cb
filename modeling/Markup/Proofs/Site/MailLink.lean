import Markup.Proofs.Render.Elements
import Markup.Site.Content

set_option autoImplicit false

/-!
# Links to mail addresses

A link to a mail address shows its content, or the address if there is no content. Other content
that renders to nothing leaves the link empty.
-/

namespace Markup

/-! ## Nodes without markup -/

/-- A node that renders to nothing: there is no node, no text and no markup in it. -/
inductive Node.Vacant : Node → Prop
  | null : Vacant .null
  | scalar {value : Scalar} (h : value.text = "") : Vacant (.scalar value)
  | raw : Vacant (.raw "")
  | seq {items : List Node} (h : ∀ item ∈ items, item.Vacant) : Vacant (.seq items)

theorem RenderOptions.escape_eq_empty_iff (options : RenderOptions) {text : String} :
    options.escape text = "" ↔ text = "" := by
  have he : options.mode.escape "" = "" := by cases options.mode <;> rfl
  unfold RenderOptions.escape
  split
  · refine ⟨fun h => escape_injective options.mode (h.trans he.symm), ?_⟩
    rintro rfl
    exact he
  · rfl

theorem Tag.markup_ne_empty (mode : Mode) (tag : Tag) (attributes : String) (children : List Node)
    (inside : String) : tag.markup mode attributes children inside ≠ "" := by
  simp [markup, String.append_eq_empty_iff]

section Vacant

variable (options : RenderOptions)

theorem render_list_ne_empty (items : List Node) : render options [.list items] ≠ .ok "" := by
  cases hd : (Node.list items).descriptor? with
  | none =>
    rw [render_malformed options hd]
    nofun
  | some tag =>
    obtain ⟨string, rest, rfl, -⟩ := Node.descriptor?_eq_some_iff.mp hd
    generalize hs : Node.splitAttrs rest = parts
    obtain ⟨map?, children⟩ := parts
    rw [render_element options hd hs]
    split
    · nofun
    · intro h
      cases hc : render options children with
      | error fault =>
        rw [hc] at h
        cases h
      | ok inside =>
        rw [hc] at h
        exact Tag.markup_ne_empty _ _ _ _ _ (Except.ok.inj h)

mutual

theorem render_eq_empty_iff : ∀ node : Node, render options [node] = .ok "" ↔ node.Vacant
  | .null => by simp [render_null, Node.Vacant.null]
  | .scalar value => by
    rw [render_scalar, Except.ok.injEq, options.escape_eq_empty_iff]
    exact ⟨.scalar, fun h => by cases h with | scalar h => exact h⟩
  | .raw markup => by
    rw [render_raw, Except.ok.injEq]
    exact ⟨fun h => h ▸ .raw, fun h => by cases h with | raw => rfl⟩
  | .seq items => by
    rw [render_seq, render_all_eq_empty_iff items]
    exact ⟨.seq, fun h => by cases h with | seq h => exact h⟩
  | .list items => ⟨fun h => absurd h (render_list_ne_empty options items), nofun⟩
  | .attrs map => by
    rw [render_attrs]
    exact ⟨nofun, nofun⟩

theorem render_all_eq_empty_iff : ∀ nodes : List Node,
    render options nodes = .ok "" ↔ ∀ node ∈ nodes, node.Vacant
  | [] => by simp
  | node :: rest => by
    rw [render_cons, List.forall_mem_cons, ← render_eq_empty_iff node,
      ← render_all_eq_empty_iff rest]
    cases render options [node] with
    | error fault => exact ⟨nofun, nofun⟩
    | ok front =>
      cases render options rest with
      | error fault => exact ⟨nofun, nofun⟩
      | ok back =>
        change Except.ok (front ++ back) = .ok "" ↔ _
        simp only [Except.ok.injEq, String.append_eq_empty_iff]

end

end Vacant

/-! ## The link -/

namespace Content

def mailMarkup (mode : Mode) (address inside : String) : String :=
  mode.startTag "a" [("href", .quoted ("mailto:" ++ address))] ++ inside ++ "</a>"

theorem mailMarkup_inj {mode : Mode} {address inside other : String} :
    mailMarkup mode address inside = mailMarkup mode address other ↔ inside = other := by
  rw [mailMarkup, mailMarkup, String.append_left_inj, String.append_right_inj]

theorem shown_address (address : String) :
    (Tag.ofName "a").shown (.ofPairs [("href", .str ("mailto:" ++ address))]) =
      [("href", .quoted ("mailto:" ++ address))] := by
  have ha : Ascending [("href", AttrValue.str ("mailto:" ++ address))] := List.pairwise_singleton ..
  have hm (key : String) (value : AttrValue) :
      (key, value) ∈ [("href", AttrValue.str ("mailto:" ++ address))] ↔
        ⟨key, value⟩ ∈ (Attrs.ofPairs [("href", .str ("mailto:" ++ address))]).entries := by
    change _ ↔ _ ∈ [Attribute.mk "href" (.str ("mailto:" ++ address))]
    simp
  rw [Tag.shown_ofName "a" ha rfl hm]
  simp [AttrValue.shown?_str]

theorem render_mailLink (options : RenderOptions) (address : String) (content : Node) :
    render options [mailLink none address content] =
      (render options [if content.isNull then .text address else content]).map
        (mailMarkup options.mode address) := by
  have ht : Tag.parse? "a" = some (.ofName "a") := by decide
  generalize hs : (if content.isNull then Node.text address else content) = shown
  have hl : mailLink none address content =
      .elementWith "a" (.ofPairs [("href", .str ("mailto:" ++ address))]) [shown] := by
    rw [← hs]
    rfl
  have hm : (Tag.ofName "a").markup options.mode (options.mode.attributesOf
      [("href", .quoted ("mailto:" ++ address))]) [shown] = mailMarkup options.mode address := by
    have he : "</" ++ ("a" ++ ">") = "</a>" := rfl
    funext inside
    rw [Tag.markup_of_children _ _ _ (List.cons_ne_nil _ _)]
    simp only [mailMarkup, Mode.startTag, Tag.ofName, String.append_assoc, he]
  rw [hl, render_elementWith options ht _ (.inl (by decide)), shown_address, hm]

theorem render_mailLink_null (options : RenderOptions) (address : String) :
    render options [mailLink none address .null] =
      .ok (mailMarkup options.mode address (options.escape address)) := by
  rw [render_mailLink, Node.isNull, if_pos rfl, Node.text, render_scalar]
  rfl

theorem render_mailLink_of_ne_null (options : RenderOptions) (address : String) {content : Node}
    (hc : content ≠ .null) : render options [mailLink none address content] =
      (render options [content]).map (mailMarkup options.mode address) := by
  have hn : content.isNull = false := by cases content <;> first | rfl | exact absurd rfl hc
  rw [render_mailLink, hn, if_neg Bool.false_ne_true]

end Content

open Content in
/-- A link to a mail address without content shows the address. Content that renders to some text
    is what the link shows, and a fault in the content is one in the link. Content that renders to
    nothing leaves the link empty, so the address is shown in its place exactly if there is no
    content at all. -/
theorem mail_link_shows (options : RenderOptions) {address : String} (ha : address ≠ "")
    (content : Node) :
    let link (content : Node) := render options [mailLink none address content]
    let around := mailMarkup options.mode address
    link .null = .ok (around (options.escape address)) ∧
      (∀ markup, markup ≠ "" → render options [content] = .ok markup →
        link content = .ok (around markup)) ∧
      (∀ fault, render options [content] = .error fault → link content = .error fault) ∧
      (render options [content] = .ok "" ↔ content.Vacant) ∧
      (content.Vacant → content ≠ .null → link content = .ok (around "")) ∧
      (content.Vacant → (link content = link .null ↔ content = .null)) := by
  intro link around
  have hn : link .null = .ok (around (options.escape address)) := render_mailLink_null ..
  have hc (h : content ≠ .null) : link content = (render options [content]).map around :=
    render_mailLink_of_ne_null options address h
  have hv (h : content.Vacant) (hne : content ≠ .null) : link content = .ok (around "") := by
    rw [hc hne, (render_eq_empty_iff options content).mpr h]
    rfl
  refine ⟨hn, fun markup hm hr => ?text, fun fault hr => ?fault, render_eq_empty_iff options content,
    hv, fun h => ⟨fun he => ?fallback, fun he => he ▸ rfl⟩⟩
  case text =>
    have hne : content ≠ .null := by
      rintro rfl
      rw [render_null] at hr
      exact hm (Except.ok.inj hr).symm
    rw [hc hne, hr]
    rfl
  case fault =>
    have hne : content ≠ .null := by
      rintro rfl
      rw [render_null] at hr
      cases hr
    rw [hc hne, hr]
    rfl
  case fallback =>
    by_contra hne
    rw [hv h hne, hn, Except.ok.injEq, mailMarkup_inj] at he
    exact ha (options.escape_eq_empty_iff.mp he.symm)

/-- A link around a text, and one around a sequence without any. -/
theorem mail_link_shows_text :
    let address := "me@example.com"
    let text := Node.text "Write & send"
    let nothing := Node.seq [.text "", .null]
    address ≠ "" ∧ render {} [text] = .ok "Write &amp; send" ∧
      render {} [Content.mailLink none address text] =
        .ok "<a href=\"mailto:me@example.com\">Write &amp; send</a>" ∧
      nothing.Vacant ∧ render {} [Content.mailLink none address nothing] =
        .ok "<a href=\"mailto:me@example.com\"></a>" := by
  intro address text nothing
  have ha : address ≠ "" := by decide
  have hr : render {} [text] = .ok "Write &amp; send" := (render_scalar {} _).trans rfl
  have hv : nothing.Vacant :=
    .seq (List.forall_mem_cons.mpr ⟨.scalar rfl, List.forall_mem_singleton.mpr .null⟩)
  have ht := (mail_link_shows {} ha text).2.1 _ (by decide) hr
  have hn := (mail_link_shows {} ha nothing).2.2.2.2.1 hv nofun
  have hm (inside : String) : Content.mailMarkup .xhtml address inside =
      "<a href=\"mailto:me@example.com\">" ++ inside ++ "</a>" := by
    have hs : Mode.xhtml.startTag "a" [("href", .quoted ("mailto:" ++ address))] =
      "<a href=\"mailto:me@example.com\">" := by decide
    rw [Content.mailMarkup, hs]
  rw [hm] at ht hn
  exact ⟨ha, hr, ht, hv, hn⟩

/-- An empty text leaves a link empty. -/
theorem mail_link_empty :
    ¬ ∀ (address : String) (content : Node), address ≠ "" → render {} [content] = .ok "" →
      render {} [Content.mailLink none address content] =
        render {} [Content.mailLink none address .null] := by
  intro h
  let address := "me@example.com"
  let content := Node.text ""
  have hc : content ≠ .null := nofun
  have hr : render {} [content] = .ok "" := (render_eq_empty_iff {} content).mpr (.scalar rfl)
  have hx := h address content (by decide) hr
  rw [Content.render_mailLink_of_ne_null {} address hc, hr, Content.render_mailLink_null] at hx
  exact absurd (Content.mailMarkup_inj.mp (Except.ok.inj hx)) (by decide)

end Markup
