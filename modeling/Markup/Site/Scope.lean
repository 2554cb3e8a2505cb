import Markup.Site.Context

set_option autoImplicit false

/-!
# Scopes

A scope is where the parts of a page are built: a context and the groups of form fields that are
open, outermost first. Fields are named and identified by the path of their groups.
-/

namespace Markup

structure Scope where
  context : Context := {}
  groups : List String := []
deriving DecidableEq, Repr

namespace Scope

def group (scope : Scope) (name : String) : Scope :=
  { scope with groups := scope.groups ++ [name] }

def path (scope : Scope) (field : String) : List String := scope.groups ++ [field]

/-- The name of a field: the first step, then every further one in brackets. -/
def fieldName (scope : Scope) (field : String) : String :=
  match scope.path field with
  | [] => ""
  | first :: rest => first ++ String.join (rest.map fun step => "[" ++ step ++ "]")

/-- The identifier of a field: its steps with hyphens between them. -/
def fieldId (scope : Scope) (field : String) : String := "-".intercalate (scope.path field)

end Scope

end Markup
