import Markup.Json.Value
import Markup.Render.Mode
import Markup.Site.Context

set_option autoImplicit false

/-!
# Settings in JSON

Render options and contexts are kept as JSON objects. A missing member takes its default, a member
of another name is skipped without regard to its value, and a member that comes twice is refused.
An array of the members in order stands for an object, too, and may leave out the last of them.
-/

namespace Markup.Json

namespace Document

def asString? : Document → Option String
  | .string pieces => Json.string? pieces
  | _ => none

def asBool? : Document → Option Bool
  | .bool value => some value
  | _ => none

def asMode? (document : Document) : Option Mode :=
  document.asString?.bind fun name => (Mode.ofName name).toOption

/-- The only member of some name, if there is one; nothing if there are several. -/
def member? (members : List (String × Document)) (name : String) : Option (Option Document) :=
  match members.filter (·.1 == name) with
  | [] => some none
  | [(_, value)] => some (some value)
  | _ => none

def members? (first second : String) :
    Document → Option (Option Document × Option Document)
  | .object members => do
    let named ← members.mapM fun (key, value) => (Json.string? key).map (·, value)
    return (← member? named first, ← member? named second)
  | .list [] => some (none, none)
  | .list [a] => some (some a, none)
  | .list [a, b] => some (some a, some b)
  | _ => none

def readOr {α : Type} (default : α) (read? : Document → Option α) : Option Document → Option α
  | some document => read? document
  | none => some default

def options? (document : Document) : Option RenderOptions := do
  let (mode, escapeStrings) ← document.members? "mode" "escape_strings"
  return { mode := ← readOr .xhtml asMode? mode
           escapeStrings := ← readOr true asBool? escapeStrings }

def context? (document : Document) : Option Context := do
  let (baseUrl, encoding) ← document.members? "base_url" "encoding"
  return { baseUrl := ← readOr "" asString? baseUrl
           encoding := ← readOr "UTF-8" asString? encoding }

end Document

def ofMode (mode : Mode) : Json := .string mode.name

def ofOptions (options : RenderOptions) : Json :=
  .object [("mode", ofMode options.mode), ("escape_strings", .bool options.escapeStrings)]

def ofContext (context : Context) : Json :=
  .object [("base_url", .string context.baseUrl), ("encoding", .string context.encoding)]

end Markup.Json
