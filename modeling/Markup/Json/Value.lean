import Markup.Json.Document
import Markup.Json.Number

set_option autoImplicit false

/-!
# JSON values

A value is what a document means: texts, numbers, and objects with the members sorted by their keys.
A document has no value if a number in it is too great, if a surrogate in it stands alone, or if it
is nested too deeply.
-/

namespace Markup

inductive Json where
  | null
  | bool (value : Bool)
  | number (value : Json.Number)
  | string (text : String)
  | array (items : List Json)
  | object (members : List (String × Json))

namespace Json

def isHighSurrogate (unit : Nat) : Bool := 0xD800 ≤ unit && unit < 0xDC00
def isLowSurrogate (unit : Nat) : Bool := 0xDC00 ≤ unit && unit < 0xE000

/-- The characters of a string, unless a surrogate in it stands alone. -/
def characters? : List Piece → Option (List Char)
  | [] => some []
  | .char c :: rest => (characters? rest).map (c :: ·)
  | .unit high :: .unit low :: rest =>
    if isHighSurrogate high then
      if isLowSurrogate low then
        let c := Char.ofNat ((high - 0xD800) * 0x400 + (low - 0xDC00) + 0x10000)
        (characters? rest).map (c :: ·)
      else none
    else if isLowSurrogate high then none
    else (characters? (.unit low :: rest)).map (Char.ofNat high :: ·)
  | .unit value :: rest =>
    if isHighSurrogate value || isLowSurrogate value then none
    else (characters? rest).map (Char.ofNat value :: ·)

def string? (pieces : List Piece) : Option String := (characters? pieces).map String.ofList

def place (key : String) (value : Json) : List (String × Json) → List (String × Json)
  | [] => [(key, value)]
  | (first, other) :: rest =>
    if key = first then (key, value) :: rest
    else if key < first then (key, value) :: (first, other) :: rest
    else (first, other) :: place key value rest

/-- The members of an object: sorted by their keys, with the last value of each key. -/
def sortMembers (members : List (String × Json)) : List (String × Json) :=
  members.foldl (fun sorted (key, value) => place key value sorted) []

/-- How many lists and objects may enclose one another. -/
def maxDepth : Nat := 127

mutual

/-- The value of a document with at most so many nested lists and objects. -/
def ofDocument? : Nat → Document → Option Json
  | _, .null => some .null
  | _, .bool value => some (.bool value)
  | _, .number digits => (Number.ofDigits? digits).map .number
  | _, .string pieces => (string? pieces).map .string
  | 0, .list _ => none
  | 0, .object _ => none
  | depth + 1, .list items => (ofDocuments? depth items).map .array
  | depth + 1, .object members => (ofMembers? depth members).map fun ms => .object (sortMembers ms)

def ofDocuments? : Nat → List Document → Option (List Json)
  | _, [] => some []
  | depth, item :: rest =>
    match ofDocument? depth item, ofDocuments? depth rest with
    | some value, some values => some (value :: values)
    | _, _ => none

def ofMembers? : Nat → List (List Piece × Document) → Option (List (String × Json))
  | _, [] => some []
  | depth, (key, item) :: rest =>
    match string? key, ofDocument? depth item, ofMembers? depth rest with
    | some name, some value, some values => some ((name, value) :: values)
    | _, _, _ => none

end

def parse? (text : String) : Option Json := (Document.parse? text).bind (ofDocument? maxDepth)

def escapeChar (c : Char) : List Char :=
  if c = '"' then ['\\', '"']
  else if c = '\\' then ['\\', '\\']
  else if c = '\x08' then ['\\', 'b']
  else if c = '\x0c' then ['\\', 'f']
  else if c = '\n' then ['\\', 'n']
  else if c = '\r' then ['\\', 'r']
  else if c = '\t' then ['\\', 't']
  else if c.toNat < 0x10 then "\\u000".toList ++ Nat.toDigits 16 c.toNat
  else if c.toNat < 0x20 then "\\u00".toList ++ Nat.toDigits 16 c.toNat
  else [c]

def quoted (text : String) : String :=
  String.ofList ('"' :: text.toList.flatMap escapeChar ++ ['"'])

mutual

/-- A value as a JSON text without blanks. -/
def text : Json → String
  | .null => "null"
  | .bool value => if value then "true" else "false"
  | .number value => value.text
  | .string value => quoted value
  | .array items => "[" ++ ",".intercalate (texts items) ++ "]"
  | .object members => "\x7b" ++ ",".intercalate (memberTexts members) ++ "\x7d"

def texts : List Json → List String
  | [] => []
  | item :: rest => text item :: texts rest

def memberTexts : List (String × Json) → List String
  | [] => []
  | (key, value) :: rest => (quoted key ++ ":" ++ text value) :: memberTexts rest

end

end Json

end Markup
