import Markup.Proofs.Render.Attributes
import Markup.Proofs.Render.Escaping
import Markup.Proofs.Render.Writing

set_option autoImplicit false

/-!
# Where dialects differ

Two dialects write a tree alike unless it has something that they write in different ways: an
element without children, an attribute that is merely present, or an apostrophe in a text that is
escaped. Where a pair of dialects agrees on one of these, the tree may have it.
-/

namespace Markup

namespace Node

def FilledUnlessVoid (node : Node) : Prop :=
  ∀ tag ∈ node.descriptor?, node.contents = [] → tag.name ∈ Tag.voidNames

def NotVoid (node : Node) : Prop :=
  ∀ tag ∈ node.descriptor?, tag.name ∉ Tag.voidNames

/-- The attribute map of a node says of no key but `class` that it is merely present. -/
def HasNoFlags (node : Node) : Prop :=
  ∀ map key, node.attrs? = some map → key ≠ "class" → map.get? key ≠ some (.bool true)

/-- The texts that are escaped where a node is written: its own text, if the options want that, and
    in the start tag of an element the values of its map, the identifier of its tag if the map has
    none, and the classes of its tag. -/
inductive Escapes (escapeStrings : Bool) : Node → String → Prop
  | text (value : Scalar) (h : escapeStrings = true) :
    Escapes escapeStrings (.scalar value) value.text
  | value {node : Node} {tag : Tag} {map : Attrs} {key text : String} {value : AttrValue}
    (hd : node.descriptor? = some tag) (hm : node.attrs? = some map)
    (hv : map.get? key = some value) (hf : value.isFalsy = false)
    (hk : key = "class" ∨ value ≠ .bool true) (ht : value.text? = some text) :
    Escapes escapeStrings node text
  | id {node : Node} {tag : Tag} {id : String} (hd : node.descriptor? = some tag)
    (hm : ∀ map, node.attrs? = some map → map.get? "id" = none) (hi : tag.id? = some id) :
    Escapes escapeStrings node id
  | classes {node : Node} {tag : Tag} (hd : node.descriptor? = some tag) :
    Escapes escapeStrings node tag.classes

theorem Escapes.of_descriptor {node : Node} {tag : Tag} {escapeStrings : Bool} {text : String}
    (he : node.Escapes escapeStrings text) (hd : node.descriptor? = some tag) :
    text = tag.classes ∨ tag.id? = some text ∨ ∃ map key value, node.attrs? = some map ∧
      map.get? key = some value ∧ value.text? = some text := by
  cases he with
  | text => cases hd
  | value _ hm hv _ _ ht => exact .inr (.inr ⟨_, _, _, hm, hv, ht⟩)
  | id hd' _ hi =>
    cases hd.symm.trans hd'
    exact .inr (.inl hi)
  | classes hd' =>
    cases hd.symm.trans hd'
    exact .inl rfl

structure WrittenAlike (a b : Mode) (escapeStrings : Bool) (node : Node) : Prop where
  texts : ∀ text, node.Escapes escapeStrings text → a.escape text = b.escape text
  flags : a.isXml = b.isXml ∨ node.HasNoFlags
  ends : ∀ tag, node.descriptor? = some tag → node.contents = [] →
    a.childlessEnd tag.name = b.childlessEnd tag.name

end Node

/-! ## Start tags -/

section StartTag

variable {a b : Mode} {escapeStrings : Bool} {node : Node} {tag : Tag}

theorem escape_joinClasses {first second : String} (hf : a.escape first = b.escape first)
    (hs : a.escape second = b.escape second) :
    a.escape (Tag.joinClasses first second) = b.escape (Tag.joinClasses first second) := by
  have space : a.escape " " = b.escape " " := by cases a <;> cases b <;> rfl
  unfold Tag.joinClasses
  split
  · exact hs
  · split
    · exact hf
    · simp only [escape_append, hf, hs, space]

theorem escape_mapClasses {map : Attrs} (h : ∀ value text, map.get? "class" = some value →
      value.isFalsy = false → value.text? = some text → a.escape text = b.escape text) :
    a.escape (Tag.mapClasses map) = b.escape (Tag.mapClasses map) := by
  have empty : a.escape "" = b.escape "" := by cases a <;> cases b <;> rfl
  unfold Tag.mapClasses
  cases hv : map.get? "class" with
  | none => exact empty
  | some value =>
    dsimp only
    split
    · exact empty
    · next hf =>
      cases ht : value.text? with
      | none => exact empty
      | some text => exact h value text hv (Bool.eq_false_iff.mpr hf) ht

theorem markup_of_mem_shown (h : node.WrittenAlike a b escapeStrings)
    (hd : node.descriptor? = some tag) {key : String} {value : Shown}
    (hs : (key, value) ∈ tag.shown (node.attrs?.getD .empty)) :
    value.markup a key = value.markup b key := by
  have quoted {text : String} (ht : a.escape text = b.escape text) :
      (Shown.quoted text).markup a key = (Shown.quoted text).markup b key := by
    rw [Shown.markup, Shown.markup, Mode.quotedAttribute, Mode.quotedAttribute, ht]
  rw [Tag.mem_shown_iff] at hs
  unfold Tag.shown? at hs
  split at hs
  -- Under `class`, the classes of the tag and those of the map are escaped one by one.
  · next hk =>
    subst hk
    obtain ⟨-, hs⟩ := Option.ite_none_left_eq_some.mp hs
    cases hs
    rw [Tag.allClasses_eq]
    refine quoted (escape_joinClasses (h.texts _ (.classes hd)) (escape_mapClasses ?_))
    intro value text hv hf ht
    cases hm : node.attrs? with
    | none => simp [hm] at hv
    | some map => exact h.texts text (.value hd hm (by simpa [hm] using hv) hf (.inl rfl) ht)
  · next hk =>
    split at hs
    -- The identifier of the tag stands for `id` only where the map has none.
    · next hi =>
      obtain ⟨id, hid, rfl⟩ := Option.map_eq_some_iff.mp hs
      refine quoted (h.texts id (.id hd (fun map hm => ?_) hid))
      simpa [hm] using hi.2
    · obtain ⟨own, ho, hv⟩ := Option.bind_eq_some_iff.mp hs
      cases hm : node.attrs? with
      | none => simp [hm] at ho
      | some map =>
        rw [hm, Option.getD_some] at ho
        by_cases ht : own = .bool true
        · -- What is merely present is not escaped, but written out in XML.
          subst ht
          cases hv
          rcases h.flags with hx | hn
          · rw [Shown.markup, Shown.markup, Mode.presentAttribute, Mode.presentAttribute, hx]
          · exact absurd ho (hn map key hm hk)
        · rw [AttrValue.shown?_eq ht] at hv
          obtain ⟨hf, hq⟩ := Option.ite_none_left_eq_some.mp hv
          obtain ⟨text, hx, rfl⟩ := Option.map_eq_some_iff.mp hq
          exact quoted (h.texts text
            (.value hd hm ho (Bool.eq_false_iff.mpr hf) (.inr ht) hx))

theorem attributeText_alike (h : node.WrittenAlike a b escapeStrings)
    (hd : node.descriptor? = some tag) :
    tag.attributeText a node.attrs? = tag.attributeText b node.attrs? := by
  rw [Tag.attributeText_eq, Tag.attributeText_eq]
  congr 1
  apply List.map_congr_left
  intro (key, value) hs
  exact congrArg (" " ++ ·) (markup_of_mem_shown h hd hs)

end StartTag

/-! ## Trees -/

theorem opening_alike {a b : Mode} {escapeStrings : Bool} {node : Node}
    (h : node.WrittenAlike a b escapeStrings) :
    node.opening ⟨a, escapeStrings⟩ = node.opening ⟨b, escapeStrings⟩ := by
  cases node with
  | null | raw | seq | attrs => rfl
  | scalar value =>
    simp only [Node.opening_scalar, RenderOptions.escape]
    split
    · next he => exact h.texts _ (.text value he)
    · rfl
  | list items =>
    cases hd : (Node.list items).descriptor? with
    | none => simp only [Node.opening, hd]
    | some tag =>
      rw [Node.opening_element _ hd, Node.opening_element _ hd, attributeText_alike h hd]
      split
      · next he => rw [h.ends tag hd (List.isEmpty_iff.mp he)]
      · rfl

theorem written_congr {a b : RenderOptions} {nodes : List Node}
    (h : ∀ node ∈ preorder nodes, node.opening a = node.opening b) :
    written a nodes = written b nodes := by
  induction nodes using preorder.induct with
  | case1 => rw [written_nil, written_nil]
  | case2 node rest inner outer =>
    rw [preorder_cons, List.forall_mem_cons, List.forall_mem_append] at h
    obtain ⟨hn, hi, ho⟩ := h
    rw [written_cons, written_cons, Node.markup, Node.markup, hn, inner hi, outer ho]

theorem render_alike {a b : Mode} {escapeStrings : Bool} {nodes : List Node}
    (h : ∀ node ∈ preorder nodes, node.WrittenAlike a b escapeStrings) :
    render ⟨a, escapeStrings⟩ nodes = render ⟨b, escapeStrings⟩ nodes := by
  have hw := written_congr (a := ⟨a, escapeStrings⟩) (b := ⟨b, escapeStrings⟩)
    fun node hn => opening_alike (h node hn)
  rw [render_eq, render_eq, hw]

/-! ## Pairs of dialects -/

theorem escape_of_entity_eq {a b : Mode} (h : a.apostropheEntity = b.apostropheEntity)
    (text : String) : a.escape text = b.escape text := by
  rw [Mode.escape, Mode.escape, Mode.replaceApostrophes, Mode.replaceApostrophes, h]

theorem escape_of_no_apostrophe (a b : Mode) {text : String} (h : '\x27' ∉ text.toList) :
    a.escape text = b.escape text := by
  rw [← String.toList_inj, toList_escape, toList_escape]
  apply List.flatMap_congr
  intro c hc
  have hne : c ≠ '\x27' := fun he => h (he ▸ hc)
  simp only [Mode.escapeChar, hne, if_false]

theorem childlessEnd_of_void (mode : Mode) {name : String} (h : name ∈ Tag.voidNames) :
    mode.childlessEnd name = if mode.isXml then " />" else ">" := by
  have hv : Tag.isVoidName name = true := by simpa [Tag.isVoidName] using h
  simp [Mode.childlessEnd, Mode.isContainer, hv]

theorem childlessEnd_of_html {mode : Mode} (hm : mode.isHtml = true) {name : String}
    (h : name ∉ Tag.voidNames) : mode.childlessEnd name = "></" ++ name ++ ">" := by
  have hv : Tag.isVoidName name = false := by simpa [Tag.isVoidName] using h
  simp [Mode.childlessEnd, Mode.isContainer, hm, hv]

/-- Dialects write a tree alike, or find it at fault alike, if it has nothing that tells them apart.
    For XML and XHTML this is an element without children that is not void; for HTML and XHTML a
    void element, or an attribute that is merely present; for HTML and SGML an element without
    children that is not void, or an apostrophe in a text that is escaped. -/
theorem render_dialects_agree (nodes : List Node) (escapeStrings : Bool) :
    ((∀ node ∈ preorder nodes, node.FilledUnlessVoid) →
      render ⟨.xml, escapeStrings⟩ nodes = render ⟨.xhtml, escapeStrings⟩ nodes) ∧
    ((∀ node ∈ preorder nodes, node.NotVoid ∧ node.HasNoFlags) →
      render ⟨.html, escapeStrings⟩ nodes = render ⟨.xhtml, escapeStrings⟩ nodes) ∧
    ((∀ node ∈ preorder nodes, node.FilledUnlessVoid ∧
        ∀ text, node.Escapes escapeStrings text → '\x27' ∉ text.toList) →
      render ⟨.html, escapeStrings⟩ nodes = render ⟨.sgml, escapeStrings⟩ nodes) := by
  refine ⟨fun h => render_alike fun node hn => ?xml, fun h => render_alike fun node hn => ?xhtml,
    fun h => render_alike fun node hn => ?sgml⟩
  case xml =>
    refine ⟨fun text _ => escape_of_entity_eq rfl text, .inl rfl, fun tag hd hc => ?_⟩
    have hv := h node hn tag hd hc
    rw [childlessEnd_of_void .xml hv, childlessEnd_of_void .xhtml hv]
    rfl
  case xhtml =>
    obtain ⟨hv, hf⟩ := h node hn
    refine ⟨fun text _ => escape_of_entity_eq rfl text, .inr hf, fun tag hd _ => ?_⟩
    rw [childlessEnd_of_html rfl (hv tag hd), childlessEnd_of_html rfl (hv tag hd)]
  case sgml =>
    obtain ⟨hv, ht⟩ := h node hn
    refine ⟨fun text he => escape_of_no_apostrophe _ _ (ht text he), .inl rfl, fun tag hd hc => ?_⟩
    rw [childlessEnd_of_void .html (hv tag hd hc), childlessEnd_of_void .sgml (hv tag hd hc)]
    rfl

/-- A paragraph whose classes are merely present, with a line break behind it where the dialects
    agree on void elements. -/
theorem render_dialects_agree_paragraph :
    let p := Node.elementWith "p#x" (.ofPairs [("class", .bool true)]) [.text "a < b"]
    let br := Node.element "br" []
    (∀ node ∈ preorder [p, br], node.FilledUnlessVoid ∧
        ∀ text, node.Escapes true text → '\x27' ∉ text.toList) ∧
      (∀ node ∈ preorder [p], node.NotVoid ∧ node.HasNoFlags) ∧
      render ⟨.xml, true⟩ [p, br] = render ⟨.xhtml, true⟩ [p, br] ∧
      render ⟨.html, true⟩ [p] = render ⟨.xhtml, true⟩ [p] ∧
      render ⟨.html, true⟩ [p, br] = render ⟨.sgml, true⟩ [p, br] := by
  intro p br
  have hp : preorder [p] = [p, .text "a < b"] := by
    simp [p, preorder_cons, Node.elementWith, Node.splitAttrs, Node.text]
  have hb : preorder [p, br] = [p, .text "a < b", br] := by
    simp [p, br, preorder_cons, Node.elementWith, Node.element, Node.splitAttrs, Node.text]
  have hpd : p.descriptor? = some ⟨"p", some "x", ""⟩ := by decide
  have hbd : br.descriptor? = some ⟨"br", none, ""⟩ := by decide
  have hc {map : Attrs} {key : String} {value : AttrValue} (hm : p.attrs? = some map)
      (h : map.get? key = some value) : key = "class" ∧ value = .bool true := by
    cases hm
    have he : _ ∈ [Attribute.mk "class" (.bool true)] := Attrs.get?_eq_some_iff.mp h
    simpa using he
  have hpt : ∀ text, p.Escapes true text → '\x27' ∉ text.toList := by
    intro text he
    obtain rfl | hi | ⟨map, key, value, hm, hv, ht⟩ := he.of_descriptor hpd
    · decide
    · cases hi
      decide
    · obtain ⟨-, rfl⟩ := hc hm hv
      cases ht
      decide
  have hbt : ∀ text, br.Escapes true text → '\x27' ∉ text.toList := by
    intro text he
    obtain rfl | hi | ⟨map, key, value, hm, hv, ht⟩ := he.of_descriptor hbd
    · decide
    · cases hi
    · cases hm
  have hbv : br.FilledUnlessVoid := by
    rw [Node.FilledUnlessVoid, hbd]
    decide
  have filled : ∀ node ∈ preorder [p, br], node.FilledUnlessVoid ∧
      ∀ text, node.Escapes true text → '\x27' ∉ text.toList := by
    rw [hb]
    refine List.forall_mem_cons.mpr ⟨⟨fun _ _ h => absurd h (List.cons_ne_nil _ _), hpt⟩,
      List.forall_mem_cons.mpr ⟨⟨fun tag h => absurd h (Option.not_mem_none tag), fun text he => ?_⟩,
        List.forall_mem_singleton.mpr ⟨hbv, hbt⟩⟩⟩
    cases he with
    | text => decide
    | value hl | id hl | classes hl => cases hl
  have plain : ∀ node ∈ preorder [p], node.NotVoid ∧ node.HasNoFlags := by
    rw [hp, List.forall_mem_cons, List.forall_mem_singleton]
    refine ⟨⟨?_, fun map key hm hk hv => hk (hc hm hv).1⟩,
      fun tag h => absurd h (Option.not_mem_none tag),
      fun map _ h => absurd h (Option.some_ne_none map).symm⟩
    rw [Node.NotVoid, hpd]
    decide
  obtain ⟨xml, -, sgml⟩ := render_dialects_agree [p, br] true
  exact ⟨filled, plain, xml fun node hn => (filled node hn).1,
    (render_dialects_agree [p] true).2.1 plain, sgml filled⟩

end Markup
