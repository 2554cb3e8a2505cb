import Markup.Json.Token

set_option autoImplicit false

/-!
# JSON documents

A document is the syntax tree of a JSON text: strings and numbers are kept as they are written, the
members of an object in the order in which they come. It is built from tokens by a stack machine, so
documents may be nested to any depth.
-/

namespace Markup.Json

inductive Document where
  | null
  | bool (value : Bool)
  | number (digits : Digits)
  | string (pieces : List Piece)
  | list (items : List Document)
  | object (members : List (List Piece × Document))

namespace Document

/-- A list or object that is not closed yet, with what it holds so far, last first. -/
inductive Frame where
  | list (items : List Document)
  /-- An object in which the value of a key comes next. -/
  | object (members : List (List Piece × Document)) (key : List Piece)

/-- What has been read, inside the open frames, innermost first. -/
inductive Reading where
  | value (frames : List Frame)
  | listStart (frames : List Frame)
  | objectStart (frames : List Frame)
  | key (members : List (List Piece × Document)) (frames : List Frame)
  | colon (members : List (List Piece × Document)) (key : List Piece) (frames : List Frame)
  | done (value : Document) (frames : List Frame)

namespace Reading

def start (frames : List Frame) : Token → Option Reading
  | .null => some (.done .null frames)
  | .bool b => some (.done (.bool b) frames)
  | .number digits => some (.done (.number digits) frames)
  | .string pieces => some (.done (.string pieces) frames)
  | .openList => some (.listStart frames)
  | .openObject => some (.objectStart frames)
  | _ => none

def step : Reading → Token → Option Reading
  | .value frames, token => start frames token
  | .listStart frames, .closeList => some (.done (.list []) frames)
  | .listStart frames, token => start (.list [] :: frames) token
  | .objectStart frames, .closeObject => some (.done (.object []) frames)
  | .objectStart frames, .string name => some (.colon [] name frames)
  | .key members frames, .string name => some (.colon members name frames)
  | .colon members name frames, .colon => some (.value (.object members name :: frames))
  | .done item (.list items :: frames), .comma => some (.value (.list (item :: items) :: frames))
  | .done item (.list items :: frames), .closeList =>
    some (.done (.list (item :: items).reverse) frames)
  | .done item (.object members name :: frames), .comma =>
    some (.key ((name, item) :: members) frames)
  | .done item (.object members name :: frames), .closeObject =>
    some (.done (.object ((name, item) :: members).reverse) frames)
  | _, _ => none

end Reading

def ofTokens? (tokens : List Token) : Option Document :=
  match tokens.foldlM Reading.step (.value []) with
  | some (.done document []) => some document
  | _ => none

def parse? (text : String) : Option Document := (Token.all? text.toList).bind ofTokens?

end Document

end Markup.Json
