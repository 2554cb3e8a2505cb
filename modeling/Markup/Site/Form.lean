import Markup.Site.Scope
import Markup.Tree.Merge

set_option autoImplicit false

/-!
# Forms

Forms and their fields, named and identified by the scope they are in. Extra attributes of the
caller go into the outermost element.
-/

namespace Markup

inductive SelectOption where
  /-- An option whose label is also its value. -/
  | label (text : String)
  | valued (text value : String)
  | group (text : String) (options : List SelectOption)

namespace Form

def inputField (scope : Scope) (kind field : String) (value : AttrValue) : Node :=
  .elementWith "input" (.ofPairs [("type", .str kind), ("name", .str (scope.fieldName field)),
    ("id", .str (scope.fieldId field)), ("value", value)]) []

def hiddenField (scope : Scope) (attrs? : Option Attrs) (field : String) (value : AttrValue) :
    Node :=
  (inputField scope "hidden" field value).mergeAttrs attrs?

def textField (scope : Scope) (attrs? : Option Attrs) (field : String) (value : AttrValue) :
    Node :=
  (inputField scope "text" field value).mergeAttrs attrs?

def passwordField (scope : Scope) (attrs? : Option Attrs) (field : String) (value : AttrValue) :
    Node :=
  (inputField scope "password" field value).mergeAttrs attrs?

def emailField (scope : Scope) (attrs? : Option Attrs) (field : String) (value : AttrValue) :
    Node :=
  (inputField scope "email" field value).mergeAttrs attrs?

/-- A check box, whose value is `true` unless one is given. -/
def checkBox (scope : Scope) (attrs? : Option Attrs) (field : String) (checked : Bool)
    (value? : Option String) : Node :=
  let own : Attrs := .ofPairs [("type", .str "checkbox"), ("name", .str (scope.fieldName field)),
    ("id", .str (scope.fieldId field)), ("value", .str (value?.getD "true")),
    ("checked", .bool checked)]
  (Node.elementWith "input" own []).mergeAttrs attrs?

def radioButton (scope : Scope) (attrs? : Option Attrs) (group : String) (checked : Bool)
    (value? : Option String) : Node :=
  let value := value?.getD "true"
  let own : Attrs := .ofPairs [("type", .str "radio"), ("name", .str (scope.fieldName group)),
    ("id", .str (scope.fieldId (group ++ "-" ++ value))), ("value", .str value),
    ("checked", .bool checked)]
  (Node.elementWith "input" own []).mergeAttrs attrs?

mutual

/-- The element of an option. It is selected if its value, or its label if it has none, is. -/
def selectOption (selected? : Option String) : SelectOption → Node
  | .label text =>
    .elementWith "option" (.ofPairs [("selected", .bool (selected? == some text))]) [.text text]
  | .valued text value =>
    .elementWith "option"
      (.ofPairs [("value", .str value), ("selected", .bool (selected? == some value))])
      [.text text]
  | .group text options =>
    .elementWith "optgroup" (.ofPairs [("label", .str text)])
      [.seq (optionElements selected? options)]

def optionElements (selected? : Option String) : List SelectOption → List Node
  | [] => []
  | option :: rest => selectOption selected? option :: optionElements selected? rest

end

def selectOptions (options : List SelectOption) (selected? : Option String) : Node :=
  .seq (optionElements selected? options)

def fieldAttrs (scope : Scope) (field : String) : Attrs :=
  .ofPairs [("name", .str (scope.fieldName field)), ("id", .str (scope.fieldId field))]

def dropDown (scope : Scope) (attrs? : Option Attrs) (field : String) (options : List SelectOption)
    (selected? : Option String) : Node :=
  (Node.elementWith "select" (fieldAttrs scope field)
    [selectOptions options selected?]).mergeAttrs attrs?

def textArea (scope : Scope) (attrs? : Option Attrs) (field : String) (value? : Option String) :
    Node :=
  (Node.elementWith "textarea" (fieldAttrs scope field) [.text? value?]).mergeAttrs attrs?

def fileUpload (scope : Scope) (attrs? : Option Attrs) (field : String) : Node :=
  (inputField scope "file" field .null).mergeAttrs attrs?

def label (scope : Scope) (attrs? : Option Attrs) (field : String) (content : Node) : Node :=
  (Node.elementWith "label" (.ofPairs [("for", .str (scope.fieldId field))])
    [content]).mergeAttrs attrs?

def button (kind : String) (attrs? : Option Attrs) (text : String) : Node :=
  (Node.elementWith "input" (.ofPairs [("type", .str kind), ("value", .str text)]) []).mergeAttrs
    attrs?

def submitButton (attrs? : Option Attrs) (text : String) : Node := button "submit" attrs? text
def resetButton (attrs? : Option Attrs) (text : String) : Node := button "reset" attrs? text

/-- A form sent to `action`. Browsers send forms with GET and POST only, so any other method goes
    into a hidden field, which belongs to no group, and the form is sent with POST. -/
def form (scope : Scope) (attrs? : Option Attrs) (method : String) (action : Uri)
    (body : List Node) : Node :=
  let wanted := String.ofList (method.toList.map Char.toUpper)
  let direct : Bool := wanted = "GET" ∨ wanted = "POST"
  let own : Attrs := .ofPairs [("method", .str (if direct then wanted else "POST")),
    ("action", .uri (scope.context.rebase action))]
  let override :=
    if direct then .null
    else hiddenField { context := scope.context } none "_method" (.str wanted)
  (Node.elementWith "form" own (override :: body)).mergeAttrs attrs?

end Form

end Markup
