import Markup.Tree.Scalar

set_option autoImplicit false

/-!
# Attribute maps

A map from names to attribute values that keeps the order in which the names came in. A name occurs
once: setting it again replaces its value and leaves its place.
-/

namespace Markup

inductive AttrValue where
  /-- No value; the attribute is left out. -/
  | null
  | scalar (value : Scalar)
  /-- Several values, shown with spaces between them. -/
  | list (values : List Scalar)

namespace AttrValue

def str (text : String) : AttrValue := .scalar (.str text)
def bool (value : Bool) : AttrValue := .scalar (.bool value)
def uri (value : Uri) : AttrValue := .scalar (.uri value)

def ofText? : Option String → AttrValue
  | some text => .str text
  | none => .null

/-- The values for which an attribute is left out. -/
def isFalsy : AttrValue → Bool
  | .null => true
  | .scalar value => value.isFalsy
  | .list values => values.isEmpty

def asString? : AttrValue → Option String
  | .scalar value => value.asString?
  | _ => none

def text? : AttrValue → Option String
  | .null => none
  | .scalar value => some value.text
  | .list values => some (" ".intercalate (values.map Scalar.text))

def literal : AttrValue → String
  | .null => "nil"
  | .scalar value => value.literal
  | .list values => "[" ++ ", ".intercalate (values.map Scalar.literal) ++ "]"

protected def beq : AttrValue → AttrValue → Bool
  | .null, .null => true
  | .scalar a, .scalar b => a == b
  | .list a, .list b => a == b
  | _, _ => false

instance : BEq AttrValue := ⟨AttrValue.beq⟩

end AttrValue

structure Attribute where
  key : String
  value : AttrValue

namespace Attribute

def flag (key : String) : Attribute := ⟨key, .bool true⟩

def literal (entry : Attribute) : String :=
  Text.quoted entry.key ++ ": " ++ entry.value.literal

/-- Puts an attribute in the place of the one with its key, or at the end. -/
def place (entry : Attribute) : List Attribute → List Attribute
  | [] => [entry]
  | first :: rest =>
    if first.key = entry.key then entry :: rest else first :: place entry rest

theorem mem_keys_place {entry : Attribute} {entries : List Attribute} {key : String} :
    key ∈ (place entry entries).map Attribute.key ↔
      key = entry.key ∨ key ∈ entries.map Attribute.key := by
  induction entries with
  | nil => simp [place]
  | cons first rest ih =>
    unfold place
    split
    · next h => simp [h]
    · simp only [List.map_cons, List.mem_cons, ih]
      exact or_left_comm

theorem nodup_keys_place (entry : Attribute) (entries : List Attribute)
    (h : (entries.map Attribute.key).Nodup) :
    ((place entry entries).map Attribute.key).Nodup := by
  induction entries with
  | nil => simp [place]
  | cons first rest ih =>
    rw [List.map_cons, List.nodup_cons] at h
    unfold place
    split
    · next hk => rw [List.map_cons, List.nodup_cons, ← hk]; exact h
    · next hk =>
      rw [List.map_cons, List.nodup_cons, mem_keys_place]
      exact ⟨fun hm => hm.elim hk h.1, ih h.2⟩

def extract (key : String) : List Attribute → Option AttrValue × List Attribute
  | [] => (none, [])
  | first :: rest =>
    if first.key = key then (some first.value, rest)
    else
      let (value?, others) := extract key rest
      (value?, first :: others)

theorem extract_sublist (key : String) (entries : List Attribute) :
    (extract key entries).2.Sublist entries := by
  induction entries with
  | nil => exact .refl _
  | cons first rest ih =>
    unfold extract
    split
    · exact List.sublist_cons_self ..
    · exact ih.cons_cons first

end Attribute

/-- Attributes in order, with pairwise different keys. -/
@[ext] structure Attrs where
  entries : List Attribute
  distinct : (entries.map Attribute.key).Nodup

namespace Attrs

def empty : Attrs := ⟨[], List.nodup_nil⟩

def isEmpty (attrs : Attrs) : Bool := attrs.entries.isEmpty
def size (attrs : Attrs) : Nat := attrs.entries.length
def keys (attrs : Attrs) : List String := attrs.entries.map Attribute.key

def get? (attrs : Attrs) (key : String) : Option AttrValue :=
  (attrs.entries.find? (·.key == key)).map Attribute.value

def contains (attrs : Attrs) (key : String) : Bool := (attrs.get? key).isSome

def insert (attrs : Attrs) (entry : Attribute) : Attrs :=
  ⟨entry.place attrs.entries, entry.nodup_keys_place attrs.entries attrs.distinct⟩

def set (attrs : Attrs) (key : String) (value : AttrValue) : Attrs := attrs.insert ⟨key, value⟩

/-- Takes a key out of a map: the value it had, and the map without it. -/
def remove (attrs : Attrs) (key : String) : Option AttrValue × Attrs :=
  ((Attribute.extract key attrs.entries).1,
    ⟨(Attribute.extract key attrs.entries).2,
      attrs.distinct.sublist ((Attribute.extract_sublist key attrs.entries).map _)⟩)

def erase (attrs : Attrs) (key : String) : Attrs := (attrs.remove key).2

def insertMany (attrs : Attrs) (attributes : List Attribute) : Attrs :=
  attributes.foldl insert attrs

/-- Takes over every attribute of another map, whose values win. -/
def update (attrs other : Attrs) : Attrs := attrs.insertMany other.entries

def ofList (attributes : List Attribute) : Attrs := empty.insertMany attributes

def ofPairs (pairs : List (String × AttrValue)) : Attrs :=
  ofList (pairs.map fun (key, value) => ⟨key, value⟩)

def literal (attrs : Attrs) : String :=
  "\x7b" ++ ", ".intercalate (attrs.entries.map Attribute.literal) ++ "\x7d"

/-- Maps are equal if they have the same keys with equal values, in whatever order. -/
protected def beq (a b : Attrs) : Bool :=
  a.size == b.size && a.entries.all fun entry => b.get? entry.key == some entry.value

instance : BEq Attrs := ⟨Attrs.beq⟩

end Attrs

end Markup
