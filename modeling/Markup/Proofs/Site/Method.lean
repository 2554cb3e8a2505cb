import Markup.Proofs.Render.Elements
import Markup.Site.Form

set_option autoImplicit false

/-!
# The method of a form

Browsers send forms with GET and POST only. A server that goes by a hidden field for the method, if
the form has added one, and by the form itself otherwise, reads the method that was asked for. What
a form adds stands between its attributes and its body, so the body is never taken for attributes.
-/

namespace Markup

namespace Node

def shownText? (node : Node) (key : String) : Option String :=
  node.descriptor?.bind fun tag =>
    (tag.shown? (node.attrs?.getD .empty) key).map (Shown.text key)

theorem shownText?_elementWith {name key : String} (ht : Tag.parse? name = some (.ofName name))
    (hk : key ≠ "class") (map : Attrs) (children : List Node) :
    (elementWith name map children).shownText? key =
      ((map.get? key).bind AttrValue.shown?).map (Shown.text key) := by
  have hm : (elementWith name map children).attrs? = some map := rfl
  rw [shownText?, descriptor?_elementWith map children ht, Option.bind_some, hm, Option.getD_some,
    Tag.shown?_ofName name hk]

/-- The method in a hidden field for it, where an absent value reads as empty. -/
def override? (node : Node) : Option String :=
  if node.descriptor?.map Tag.name = some "input" ∧ node.shownText? "type" = some "hidden" ∧
      node.shownText? "name" = some "_method" then
    some ((node.shownText? "value").getD "")
  else none

end Node

namespace Form

/-- The method that a server reads: that of the first field for it among the given ones, or else
    that of the form. -/
def receivedMethod? (form : Node) (fields : List Node) : Option String :=
  (fields.findSome? Node.override?).or (form.shownText? "method")

def directMethods : List String := ["GET", "POST"]

/-- The field for a method, which belongs to no group. -/
def methodField (context : Context) (method : String) : Node :=
  hiddenField { context } none "_method" (.str method)

theorem shownText?_methodField (context : Context) (method : String) {key : String}
    (hk : key ≠ "class") : (methodField context method).shownText? key =
      (((Attrs.ofPairs [("type", .str "hidden"), ("name", .str "_method"), ("id", .str "_method"),
        ("value", .str method)]).get? key).bind AttrValue.shown?).map (Shown.text key) :=
  Node.shownText?_elementWith (by decide) hk _ _

theorem override?_methodField (context : Context) (method : String) :
    (methodField context method).override? = some method := by
  have hd : (methodField context method).descriptor? = some (.ofName "input") :=
    (by decide : Tag.parse? "input" = some (.ofName "input"))
  have hv : (methodField context method).shownText? "value" =
      (AttrValue.str method).shown?.map (Shown.text "value") :=
    shownText?_methodField context method (by decide)
  have hn : (methodField context method).shownText? "type" = some "hidden" ∧
      (methodField context method).shownText? "name" = some "_method" :=
    ⟨shownText?_methodField context method (by decide),
      shownText?_methodField context method (by decide)⟩
  rw [Node.override?, hd, if_pos ⟨rfl, hn⟩, hv, AttrValue.shown?_str]
  by_cases h : method = "" <;> simp [h, Shown.text]

def added (context : Context) (method : String) : Node :=
  if method ∈ directMethods then .null else methodField context method

def sentMethod (method : String) : String := if method ∈ directMethods then method else "POST"

theorem form_eq (scope : Scope) (attrs? : Option Attrs) (method : String) (action : Uri)
    (body : List Node) :
    let wanted := String.ofList (method.toList.map Char.toUpper)
    form scope attrs? method action body =
      .elementWith "form" ((Attrs.ofPairs [("method", .str (sentMethod wanted)),
        ("action", .uri (scope.context.rebase action))]).update (attrs?.getD .empty))
        (added scope.context wanted :: body) := by
  intro wanted
  rw [← Node.mergeAttrs_elementWith]
  simp [form, added, sentMethod, directMethods, methodField, wanted]

theorem receivedMethod?_form {wanted : String} (context : Context) {form : Node}
    (hf : form.shownText? "method" = some (sentMethod wanted)) :
    receivedMethod? form [added context wanted] = some wanted := by
  unfold receivedMethod? added
  split
  · next h =>
    have hn : Node.null.override? = none := by decide
    rw [List.findSome?_cons, hn, List.findSome?_nil, Option.none_or, hf, sentMethod, if_pos h]
  · rw [List.findSome?_cons, override?_methodField]
    rfl

/-- A form conveys the method that was asked for, in upper case: it is sent with GET or POST, and a
    server reads the method from it. There is a field for the method exactly if browsers cannot send
    it, named by itself in every scope. Behind the field, or nothing in its place, stands the body,
    no part of which is among the attributes: these are those of the form, updated by the
    caller's. -/
theorem form_conveys_method (scope : Scope) {attrs? : Option Attrs}
    (ha : (attrs?.getD .empty).get? "method" = none) (method : String) (action : Uri)
    (body : List Node) :
    let form := form scope attrs? method action body
    let wanted := String.ofList (method.toList.map Char.toUpper)
    ∃ sent ∈ directMethods, ∃ map first,
      form = .elementWith "form" map (first :: body) ∧ form.contents = first :: body ∧
      map = (Attrs.ofPairs [("method", .str sent),
        ("action", .uri (scope.context.rebase action))]).update (attrs?.getD .empty) ∧
      (∀ options, render options [form] = (render options (first :: body)).map fun inside =>
        options.mode.startTag "form" ((Tag.ofName "form").shown map) ++ inside ++ "</form>") ∧
      form.shownText? "method" = some sent ∧ receivedMethod? form [first] = some wanted ∧
      (wanted ∈ directMethods → first = .null) ∧
      (wanted ∉ directMethods → first.override? = some wanted ∧
        first.shownText? "name" = some "_method" ∧ first.shownText? "id" = some "_method") := by
  intro form wanted
  have hs : sentMethod wanted ∈ directMethods := by
    unfold sentMethod
    split
    · assumption
    · decide
  have hne : sentMethod wanted ≠ "" := fun h => absurd (h ▸ hs) (by decide)
  have hf := form_eq scope attrs? method action body
  have ht : Tag.parse? "form" = some (.ofName "form") := by decide
  have hm : form.shownText? "method" = some (sentMethod wanted) := by
    rw [show form = _ from hf, Node.shownText?_elementWith ht (by decide), Attrs.get?_update, ha,
      Option.none_or]
    change ((AttrValue.str (sentMethod wanted)).shown?).map _ = _
    rw [AttrValue.shown?_str, if_neg hne]
    rfl
  refine ⟨_, hs, _, added scope.context wanted, hf, ?contents, rfl, ?markup, hm,
    receivedMethod?_form _ hm, fun h => if_pos h, fun h => ?field⟩
  case contents =>
    rw [show form = _ from hf]
    rfl
  case markup =>
    intro options
    rw [show form = _ from hf, render_elementWith options ht _ (.inl (by decide))]
    congr 1
    funext inside
    simp [Tag.markup_of_children, Mode.startTag, Tag.ofName, String.append_assoc]
  case field =>
    rw [show added scope.context wanted = methodField scope.context wanted from if_neg h]
    exact ⟨override?_methodField _ _, shownText?_methodField _ _ (by decide),
      shownText?_methodField _ _ (by decide)⟩

/-- A form inside a group that is to delete, with an attribute map in front of its body. -/
theorem form_conveys_method_delete :
    let scope : Scope := { groups := ["item"] }
    let caller := Attrs.ofPairs [("class", .str "inline")]
    let body := [Node.attrs caller, .text "Delete"]
    caller.get? "method" = none ∧ ∃ sent ∈ directMethods, ∃ map first,
      form scope (some caller) "delete" (Uri.parse "/items/1") body =
        .elementWith "form" map (first :: body) ∧
      first.override? = some "DELETE" ∧ first.shownText? "name" = some "_method" := by
  intro scope caller body
  have ha : ((some caller).getD Attrs.empty).get? "method" = none := rfl
  have hw : String.ofList ("delete".toList.map Char.toUpper) = "DELETE" := by decide
  obtain ⟨sent, hs, map, first, hf, -, -, -, -, -, -, hn⟩ :=
    form_conveys_method scope ha "delete" (Uri.parse "/items/1") body
  rw [hw] at hn
  obtain ⟨ho, hnm, -⟩ := hn (by decide)
  exact ⟨ha, sent, hs, map, first, hf, ho, hnm⟩

end Form

end Markup
