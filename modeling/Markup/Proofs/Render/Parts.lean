import Markup.Proofs.Render.Document
import Markup.Proofs.Render.Elements

set_option autoImplicit false

/-!
# Markup in parts

Nodes whose elements all have children are written in parts that do not depend on the dialect: start
tags with what they show, texts and end tags. The parts tell both what the nodes render to and what
a scanner reads from it.
-/

namespace Markup

inductive Part where
  | start (name : String) (shown : List (String × Shown))
  | text (content : String)
  | stop (name : String)

namespace Part

def markup (options : RenderOptions) : Part → String
  | start name shown => options.mode.startTag name shown
  | text content => options.escape content
  | stop name => "</" ++ name ++ ">"

def piece : Part → Piece
  | start name shown => .mark (.start name (shown.map fun (key, value) => (key, value.text key)))
  | text content => .text content
  | stop name => .mark (.stop name)

end Part

theorem Node.isPlain_of_no_element {node : Node} (hr : node.isRaw = false)
    (hd : node.descriptor? = none) (ha : node.attrs? = none) : node.IsPlain := by
  refine ⟨hr, fun tag ht => ?_, ?_⟩
  · rw [hd] at ht
    cases ht
  · rw [ha]
    exact List.forall_mem_nil _

/-- Nodes that render to the given parts under all options, and stand for them in a document. -/
structure WrittenAs (nodes : List Node) (parts : List Part) : Prop where
  render : ∀ options, render options nodes = .ok (String.join (parts.map (Part.markup options)))
  document : document nodes = parts.map Part.piece
  plain : ∀ node ∈ preorder nodes, node.IsPlain

namespace WrittenAs

variable {nodes rest : List Node} {node : Node} {parts more : List Part}

theorem nil : WrittenAs [] [] := by
  refine ⟨fun options => ?_, document_nil, by simp⟩
  rw [render_nil]
  rfl

theorem cons (hn : WrittenAs [node] parts) (hr : WrittenAs rest more) :
    WrittenAs (node :: rest) (parts ++ more) := by
  constructor
  case render =>
    intro options
    rw [render_cons, hn.render, hr.render, List.map_append, String.join_append]
    rfl
  case document =>
    have hd : Markup.document (node :: rest) = Markup.document [node] ++ Markup.document rest := by
      rw [document_cons, document_cons, document_nil]
      simp
    rw [hd, hn.document, hr.document, List.map_append]
  case plain =>
    have hp := hn.plain
    rw [preorder_cons, preorder_nil, List.append_nil] at hp
    rw [preorder_cons, ← List.cons_append, List.forall_mem_append]
    exact ⟨hp, hr.plain⟩

theorem text (content : String) : WrittenAs [Node.text content] [.text content] := by
  constructor
  case render =>
    intro options
    rw [Node.text, render_eq, firstFault?_singleton, written_singleton]
    simp [Node.markup, Part.markup, Scalar.text]
  case document =>
    rw [Node.text, document_cons, Node.contents_scalar, document_nil]
    rfl
  case plain =>
    rw [Node.text, preorder_cons, Node.contents_scalar, preorder_nil]
    exact List.forall_mem_singleton.mpr (Node.isPlain_of_no_element rfl rfl rfl)

theorem seq (h : WrittenAs nodes parts) : WrittenAs [.seq nodes] parts := by
  constructor
  case render =>
    intro options
    rw [render_seq, h.render]
  case document =>
    rw [document_cons, document_nil, ← h.document]
    simp [Node.before, Node.behind, Node.descriptor?, Node.tag?]
  case plain =>
    rw [preorder_cons, preorder_nil, List.append_nil]
    exact List.forall_mem_cons.mpr ⟨Node.isPlain_of_no_element rfl rfl rfl, h.plain⟩

theorem element {name : String} (ht : Tag.parse? name = some (.ofName name))
    (hv : Tag.isVoidName name = false) (hn : IsPlainName name) {map : Attrs}
    (hk : HasPlainKeys (some map)) (hc : nodes ≠ []) (h : WrittenAs nodes parts) :
    WrittenAs [.elementWith name map nodes]
      (.start name ((Tag.ofName name).shown map) :: (parts ++ [.stop name])) := by
  have hd := Node.descriptor?_elementWith map nodes ht
  constructor
  case render =>
    intro options
    rw [render_elementWith options ht map (.inl hv), h.render, List.map_cons, List.map_append,
      String.join_cons, String.join_append]
    simp [Except.map, Tag.markup_of_children, hc, Part.markup, Mode.startTag, Tag.ofName,
      String.append_assoc]
  case document =>
    have hb : (Node.elementWith name map nodes).before =
        [Part.piece (.start name ((Tag.ofName name).shown map))] := by
      simp only [Node.elementWith, Node.before] at hd ⊢
      rw [hd]
      rfl
    have ha : (Node.elementWith name map nodes).behind = [Part.piece (.stop name)] := by
      rw [Node.behind, hd]
      rfl
    have hi : (Node.elementWith name map nodes).contents = nodes := rfl
    rw [document_cons, document_nil, hb, ha, hi, h.document]
    simp
  case plain =>
    rw [preorder_cons, preorder_nil, List.append_nil]
    refine List.forall_mem_cons.mpr ⟨⟨rfl, ?_, hk⟩, h.plain⟩
    intro tag htag
    rw [hd] at htag
    cases htag
    exact hn

theorem scan (h : WrittenAs nodes parts) {options : RenderOptions} (hm : options.mode ≠ .sgml)
    (he : options.escapeStrings = true) :
    Markup.scan (String.join (parts.map (Part.markup options))).toList =
      some (.gather (parts.map Part.piece) (.ofText "")) := by
  have hr := h.render options
  have hf := (render_eq_ok_iff options).mp ⟨_, hr⟩
  rw [render_eq, hf] at hr
  have hs := scan_written hm he hf h.plain []
  rw [List.append_nil, scan_of_no_tag List.not_mem_nil, unescaped_nil, h.document] at hs
  rwa [← Except.ok.inj hr]

end WrittenAs

end Markup
