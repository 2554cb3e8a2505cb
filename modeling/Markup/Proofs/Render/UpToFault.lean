import Markup.Proofs.Render.Composition
import Markup.Proofs.Render.FirstFault

set_option autoImplicit false

/-!
# Up to a fault

Writing a node adds the same text to whatever is there. Where it stops at a fault, it has added
what stands in front of the node at fault, no more and no less: if that node alone is replaced, the
new tree starts with the same text, goes on with that of the new node, and only then with something
else.
-/

namespace Markup

namespace Node

def withContents (node : Node) (contents : List Node) : Node :=
  match node with
  | .seq _ => .seq contents
  | .list (head :: rest) => .list (head :: ((splitAttrs rest).1.toList.map .attrs ++ contents))
  | leaf => leaf

theorem withContents_contents (node : Node) : node.withContents node.contents = node := by
  have whole (nodes : List Node) :
      (splitAttrs nodes).1.toList.map .attrs ++ (splitAttrs nodes).2 = nodes := by
    unfold splitAttrs
    split <;> rfl
  cases node with
  | null | scalar | raw | seq | attrs => rfl
  | list items =>
    cases items with
    | nil => rfl
    | cons head rest => rw [contents_list, withContents, whole]

end Node

/-- Nodes in which the first one at fault, in the order of rendering, is replaced by another node.
    The error is the one that reports it. -/
inductive Mended (error : Error) (substitute : Node) : List Node → List Node → Prop
  | here {offender : Node} (h : Fault offender error) (rest : List Node) :
    Mended error substitute (offender :: rest) (substitute :: rest)
  | inside {node : Node} {mended : List Node} (hn : ∀ missed, ¬ Fault node missed)
    (hm : Mended error substitute node.contents mended) (rest : List Node) :
    Mended error substitute (node :: rest) (node.withContents mended :: rest)
  | later {node : Node} {rest mended : List Node}
    (hn : ∀ earlier ∈ preorder [node], ∀ missed, ¬ Fault earlier missed)
    (hm : Mended error substitute rest mended) :
    Mended error substitute (node :: rest) (node :: mended)

namespace Mended

variable {error : Error} {substitute : Node} {nodes mended : List Node}

theorem firstFault?_eq (h : Mended error substitute nodes mended) :
    firstFault? nodes = some error := by
  induction h with
  | here h rest => rw [firstFault?_cons, h.ownFault?, Option.some_or]
  | inside hn _ rest ih =>
    rw [firstFault?_cons, ownFault?_eq_none_iff.mpr hn, Option.none_or, ih, Option.some_or]
  | later hn _ ih =>
    have hf := firstFault?_eq_none_iff.mpr hn
    rw [firstFault?_singleton] at hf
    rw [firstFault?_cons, ← Option.or_assoc, hf, Option.none_or, ih]

/-- A tree that does not render has a first node at fault. Put in its own place, it leaves the tree
    as it is. -/
theorem exists_of_firstFault? (h : firstFault? nodes = some error) :
    ∃ offender, Fault offender error ∧ Mended error offender nodes nodes := by
  induction nodes using preorder.induct with
  | case1 =>
    rw [firstFault?_nil] at h
    cases h
  | case2 node rest inner outer =>
    rw [firstFault?_cons] at h
    cases ho : node.ownFault? with
    | some fault =>
      rw [ho, Option.some_or] at h
      cases h
      have hf := fault_of_ownFault? ho
      exact ⟨node, hf, .here hf rest⟩
    | none =>
      rw [ho, Option.none_or] at h
      cases hc : firstFault? node.contents with
      | some fault =>
        rw [hc, Option.some_or] at h
        cases h
        obtain ⟨offender, hf, hm⟩ := inner hc
        have hi := Mended.inside (ownFault?_eq_none_iff.mp ho) hm rest
        rw [Node.withContents_contents] at hi
        exact ⟨offender, hf, hi⟩
      | none =>
        rw [hc, Option.none_or] at h
        have hn : firstFault? [node] = none := by rw [firstFault?_singleton, ho, hc]; rfl
        obtain ⟨offender, hf, hm⟩ := outer h
        exact ⟨offender, hf, .later (firstFault?_eq_none_iff.mp hn) hm⟩

theorem exists_substitute (h : Mended error substitute nodes mended) (other : Node) :
    ∃ more, Mended error other nodes more := by
  induction h with
  | here h rest => exact ⟨_, .here h rest⟩
  | inside hn _ rest ih =>
    obtain ⟨more, hm⟩ := ih
    exact ⟨_, .inside hn hm rest⟩
  | later hn _ ih =>
    obtain ⟨more, hm⟩ := ih
    exact ⟨_, .later hn hm⟩

theorem not_nil : ¬ Mended error substitute [] mended := nofun

theorem exists_tree {node : Node} (h : Mended error substitute [node] mended) :
    ∃ tree, mended = [tree] := by
  cases h with
  | here => exact ⟨_, rfl⟩
  | inside => exact ⟨_, rfl⟩
  | later _ hm => exact absurd hm not_nil

theorem isEmpty_eq (h : Mended error substitute nodes mended) :
    nodes.isEmpty = false ∧ mended.isEmpty = false := by
  cases h <;> exact ⟨rfl, rfl⟩

end Mended

/-! ## The element around a mended node -/

namespace Node

variable {error : Error} {substitute : Node} {contents mended : List Node}

theorem isAttrs_withContents (node : Node) (contents : List Node) :
    (node.withContents contents).isAttrs = node.isAttrs := by
  unfold withContents
  split <;> rfl

theorem splitAttrs_mended (h : Mended error substitute contents mended)
    (hs : substitute.isAttrs = false) (hn : (splitAttrs contents).1 = none) :
    splitAttrs mended = (none, mended) := by
  apply splitAttrs_of_none
  cases h with
  | here _ rest => exact splitAttrs_cons_eq_none_iff.mpr hs
  | inside _ _ rest =>
    rw [splitAttrs_cons_eq_none_iff] at hn ⊢
    rw [isAttrs_withContents, hn]
  | later _ _ =>
    rw [splitAttrs_cons_eq_none_iff] at hn ⊢
    exact hn

theorem splitAttrs_of_eq_none {rest children : List Node} (h : splitAttrs rest = (none, children)) :
    splitAttrs children = (none, children) := by
  have hr := splitAttrs_of_none (congrArg Prod.fst h)
  obtain rfl : rest = children := congrArg Prod.snd (hr.symm.trans h)
  exact hr

theorem withContents_list (head : Node) {rest children : List Node} {own? : Option Attrs}
    (hs : splitAttrs rest = (own?, children))
    (hc : own? = none → splitAttrs contents = (none, contents)) :
    ∃ others, (list (head :: rest)).withContents contents = list (head :: others) ∧
      splitAttrs others = (own?, contents) := by
  refine ⟨_, rfl, ?_⟩
  rw [hs]
  cases own? with
  | none => exact hc rfl
  | some map => rfl

structure Frame (options : RenderOptions) (node tree : Node) (contents : List Node) : Prop where
  contents : tree.contents = contents
  fault : tree.ownFault? = none
  opening : tree.opening options = node.opening options

theorem frame_list (options : RenderOptions) {head : Node} {rest : List Node} (others : List Node)
    (ho : (list (head :: rest)).ownFault? = none)
    (hm : (splitAttrs others).1 = (splitAttrs rest).1)
    (he : (splitAttrs others).2.isEmpty = (splitAttrs rest).2.isEmpty) :
    Frame options (list (head :: rest)) (list (head :: others)) (splitAttrs others).2 := by
  have hd : (list (head :: others)).descriptor? = (list (head :: rest)).descriptor? := rfl
  cases ht : (list (head :: rest)).descriptor? with
  | none =>
    rw [ownFault?_malformed ht] at ho
    cases ho
  | some tag =>
    rw [ht] at hd
    constructor
    case contents => rfl
    case fault => rwa [ownFault?_element hd, contents_list, he, ← contents_list head,
      ← ownFault?_element ht]
    case opening =>
      rw [opening_element options hd, opening_element options ht, attrs?_list, attrs?_list, hm,
        contents_list, contents_list, he]

theorem frame_mended (options : RenderOptions) {node : Node} (ho : node.ownFault? = none)
    (h : Mended error substitute node.contents mended) (hs : substitute.isAttrs = false) :
    Frame options node (node.withContents mended) mended := by
  cases node with
  | null | scalar | raw | attrs => exact absurd h Mended.not_nil
  | seq items => exact ⟨rfl, rfl, rfl⟩
  | list items =>
    cases items with
    | nil => exact absurd h Mended.not_nil
    | cons head rest =>
      cases hr : splitAttrs rest with
      | mk own? children =>
        rw [contents_list, hr] at h
        -- without a map of its own, the element must not take the mended child for one
        have hk (hn : own? = none) : splitAttrs mended = (none, mended) := by
          subst hn
          exact splitAttrs_mended h hs (congrArg Prod.fst (splitAttrs_of_eq_none hr))
        obtain ⟨others, hw, hm⟩ := withContents_list head hr hk
        have he : (splitAttrs others).2.isEmpty = (splitAttrs rest).2.isEmpty := by
          rw [hm, hr, h.isEmpty_eq.1, h.isEmpty_eq.2]
        have hf := frame_list options others ho (by rw [hm, hr]) he
        rwa [← hw, hm] at hf

end Node

/-! ## The text in front of the fault -/

section Text

variable {error : Error} {substitute : Node} {nodes mended : List Node}

theorem written_cons_of_fault (options : RenderOptions) {node : Node} {fault : Error}
    (h : firstFault? [node] = some fault) (rest : List Node) :
    written options (node :: rest) = node.markup options := by
  rw [firstFault?_singleton] at h
  rw [written_cons, h, Option.isSome_some, if_pos rfl, String.append_empty]

theorem written_cons_of_no_fault (options : RenderOptions) {node : Node}
    (h : firstFault? [node] = none) (rest : List Node) :
    written options (node :: rest) = node.markup options ++ written options rest := by
  rw [firstFault?_singleton] at h
  rw [written_cons, h]
  rfl

theorem exists_written_cons (options : RenderOptions) (node : Node) (rest : List Node) :
    ∃ tail, written options (node :: rest) = node.markup options ++ tail :=
  ⟨_, written_cons options node rest⟩

theorem exists_markup_eq (options : RenderOptions) {node : Node} (ho : node.ownFault? = none) :
    ∃ rest, node.markup options =
      node.opening options ++ (written options node.contents ++ rest) := by
  refine ⟨if (firstFault? node.contents).isSome then "" else node.closing, ?_⟩
  rw [Node.markup, ho, Option.isSome_none, if_neg Bool.false_ne_true, String.append_assoc]

theorem written_mended (options : RenderOptions) (h : Mended error substitute nodes mended)
    (hs : substitute.isAttrs = false) : ∃ rest,
      written options mended = written options nodes ++ (substitute.markup options ++ rest) := by
  -- the induction goes down to the fault; only there do the two trees differ
  induction h with
  | @here offender h rest =>
    have hf : firstFault? [offender] = some error := by
      rw [firstFault?_singleton, h.ownFault?, Option.some_or]
    have hm : offender.markup options = "" := by
      rw [Node.markup, h.ownFault?, Option.isSome_some, if_pos rfl]
    obtain ⟨tail, ht⟩ := exists_written_cons options substitute rest
    exact ⟨tail, by rw [written_cons_of_fault options hf, hm, ht, String.empty_append]⟩
  | @inside node mended hn hm rest ih =>
    obtain ⟨more, ih⟩ := ih
    have ho := ownFault?_eq_none_iff.mpr hn
    have hf : firstFault? [node] = some error := (Mended.inside hn hm []).firstFault?_eq
    have hw : node.markup options = node.opening options ++ written options node.contents := by
      simp [Node.markup, ho, hm.firstFault?_eq]
    have hk := Node.frame_mended options ho hm hs
    obtain ⟨tail, ht⟩ := exists_markup_eq options hk.fault
    obtain ⟨last, hl⟩ := exists_written_cons options (node.withContents mended) rest
    refine ⟨more ++ (tail ++ last), ?_⟩
    rw [written_cons_of_fault options hf, hw, hl, ht, hk.opening, hk.contents, ih]
    simp only [String.append_assoc]
  | @later node rest mended hn _ ih =>
    obtain ⟨more, ih⟩ := ih
    have hf := firstFault?_eq_none_iff.mpr hn
    rw [written_cons_of_no_fault options hf, written_cons_of_no_fault options hf, ih]
    exact ⟨more, (String.append_assoc ..).symm⟩

end Text

/-- Writing only adds: a node adds one text to whatever is there, and the rest of its result is one
    too. Alone it renders to that text, and nodes in a row render to their texts in a row, up to the
    first error. Where a node stops at a fault, its text is what stands in front of the node at
    fault: if that one is replaced by any node but an attribute map, the new tree adds the same
    text, then that of the new node, and then the rest. -/
theorem writing_up_to_fault (options : RenderOptions) :
    (∀ node : Node, ∃ text fault?, Writes (writeNode options node) text fault? ∧
      render options [node] = fault?.elim (.ok text) .error) ∧
    (∀ nodes more : List Node, render options (nodes ++ more) =
      match render options nodes, render options more with
      | .ok front, .ok back => .ok (front ++ back)
      | .ok _, .error fault => .error fault
      | .error fault, _ => .error fault) ∧
    ∀ (node : Node) (text : String) (error : Error),
      Writes (writeNode options node) text (some error) →
      (∃ offender, Fault offender error ∧ Mended error offender [node] [node]) ∧
      ∀ substitute : Node, (∃ tree, Mended error substitute [node] [tree]) ∧
        (substitute.isAttrs = false → ∀ tree, Mended error substitute [node] [tree] →
          ∃ own own? rest last?, Writes (writeNode options substitute) own own? ∧
            Writes (writeNode options tree) (text ++ (own ++ rest)) last?) := by
  refine ⟨fun node => ?_, fun nodes more => ?_, ?_⟩
  · refine ⟨_, _, writes_singleton options node, ?_⟩
    rw [render_eq]
    cases firstFault? [node] <;> rfl
  · rw [render_append]
    cases render options nodes with
    | error fault => rfl
    | ok front => cases render options more <;> rfl
  · intro node text error hw
    obtain ⟨rfl, hf⟩ := hw.unique (writes_singleton options node)
    obtain ⟨offender, ho, hm⟩ := Mended.exists_of_firstFault? hf.symm
    refine ⟨⟨offender, ho, hm⟩, fun substitute => ⟨?_, fun hs tree ht => ?_⟩⟩
    · obtain ⟨mended, hm⟩ := hm.exists_substitute substitute
      obtain ⟨tree, rfl⟩ := hm.exists_tree
      exact ⟨tree, hm⟩
    · obtain ⟨rest, hr⟩ := written_mended options ht hs
      have hx := writes_singleton options tree
      rw [hr, ← written_singleton] at hx
      exact ⟨_, _, rest, _, writes_singleton options substitute, hx⟩

/-- A malformed element inside an emphasis inside a paragraph, replaced by markup. -/
theorem writing_up_to_fault_emphasis :
    let options : RenderOptions := ⟨.html, true⟩
    let tree (inside : Node) := Node.list [Node.text "p", Node.text "a",
      .list [Node.text "em", inside, Node.text "b"], Node.text "c"]
    let error := Error.malformedElement "[]"
    Writes (writeNode options (tree (.list []))) "<p>a<em>" (some error) ∧
      (Node.raw "<br>").isAttrs = false ∧
      Mended error (.raw "<br>") [tree (.list [])] [tree (.raw "<br>")] ∧
      ∃ own own? rest last?, Writes (writeNode options (.raw "<br>")) own own? ∧
        Writes (writeNode options (tree (.raw "<br>"))) ("<p>a<em>" ++ (own ++ rest)) last? := by
  intro options tree error
  have ht : written options [tree (.list [])] = "<p>a<em>" := by decide +kernel
  have hf : firstFault? [tree (.list [])] = some error := by decide +kernel
  have hw := writes_singleton options (tree (.list []))
  rw [ht, hf] at hw
  have leaf : firstFault? [Node.text "a"] = none := by decide +kernel
  have hm : Mended error (.raw "<br>") [tree (.list [])] [tree (.raw "<br>")] := by
    have hi : Mended error (.raw "<br>")
        [.list [Node.text "em", .list [], Node.text "b"], Node.text "c"]
        [.list [Node.text "em", .raw "<br>", Node.text "b"], Node.text "c"] :=
      .inside (ownFault?_eq_none_iff.mp rfl) (.here .empty [Node.text "b"]) [Node.text "c"]
    exact .inside (ownFault?_eq_none_iff.mp rfl) (.later (firstFault?_eq_none_iff.mp leaf) hi) []
  have h := (writing_up_to_fault options).2.2 _ _ _ hw
  exact ⟨hw, rfl, hm, (h.2 (.raw "<br>")).2 rfl _ hm⟩

end Markup
