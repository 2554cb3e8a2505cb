import Markup.Render.Escape
import Markup.Tree.Attrs

set_option autoImplicit false

/-!
# Start tags

The attributes in a start tag come from the tag and from the attribute map of the element. They
stand in ascending order of their keys. Classes of both are joined; the identifier of the tag gives
way to one in the map, whatever its value.
-/

namespace Markup

def Mode.quotedAttribute (mode : Mode) (key text : String) : String :=
  key ++ "=\"" ++ mode.escape text ++ "\""

/-- A key that is merely present. Where every attribute has a value, the key is its own. -/
def Mode.presentAttribute (mode : Mode) (key : String) : String :=
  if mode.isXml then key ++ "=\"" ++ key ++ "\"" else key

/-- How an attribute is written, unless it is left out. -/
def Mode.attribute? (mode : Mode) (key : String) (value : AttrValue) : Option String :=
  match value with
  | .scalar (.bool true) => some (mode.presentAttribute key)
  | value => if value.isFalsy then none else value.text?.map (mode.quotedAttribute key)

namespace Tag

def mapFragments (mode : Mode) (map : Attrs) : List (String × String) :=
  (map.entries.filter (·.key != "class")).filterMap fun entry =>
    (mode.attribute? entry.key entry.value).map (entry.key, ·)

def idFragment (mode : Mode) (tag : Tag) (map : Attrs) : List (String × String) :=
  match tag.id? with
  | some id => if map.contains "id" then [] else [("id", mode.quotedAttribute "id" id)]
  | none => []

def mapClasses (map : Attrs) : String :=
  match map.get? "class" with
  | some value => if value.isFalsy then "" else value.text?.getD ""
  | none => ""

def allClasses (tag : Tag) (map : Attrs) : String :=
  " ".intercalate ([tag.classes, mapClasses map].filter (· != ""))

def classFragment (mode : Mode) (tag : Tag) (map : Attrs) : List (String × String) :=
  let classes := tag.allClasses map
  if classes = "" then [] else [("class", mode.quotedAttribute "class" classes)]

def fragments (mode : Mode) (tag : Tag) (map : Attrs) : List (String × String) :=
  mapFragments mode map ++ tag.idFragment mode map ++ tag.classFragment mode map

/-- The attributes of a start tag in ascending order of their keys, each after a space. -/
def attributeText (mode : Mode) (tag : Tag) (map? : Option Attrs) : String :=
  let sorted := (tag.fragments mode (map?.getD .empty)).mergeSort fun a b => a.1 ≤ b.1
  String.join (sorted.map fun (_, fragment) => " " ++ fragment)

end Tag

end Markup
