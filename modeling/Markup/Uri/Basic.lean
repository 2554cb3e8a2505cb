set_option autoImplicit false

/-!
# URIs

Every text splits into the parts of some URI, and `Uri.text` puts the parts together again. An
authority may be present and empty, as in `file:///etc/hosts`.
-/

namespace Markup

structure Uri where
  /-- The scheme in lower case, without its colon. -/
  scheme : String := ""
  /-- What names the host, without the two slashes in front. -/
  netloc : String := ""
  hasAuthority : Bool := false
  path : String := ""
  query : String := ""
  fragment : String := ""
deriving DecidableEq, Repr, Inhabited

namespace Uri

def splitAt? (mark : Char) (text : List Char) : Option (List Char × List Char) :=
  match text.dropWhile (· != mark) with
  | _ :: after => some (text.takeWhile (· != mark), after)
  | [] => none

def splitAt (mark : Char) (text : List Char) : List Char × List Char :=
  (splitAt? mark text).getD (text, [])

def isSchemeChar (c : Char) : Bool :=
  c.isAlphanum || c == '+' || c == '-' || c == '.'

def isScheme : List Char → Bool
  | [] => false
  | c :: cs => c.isAlpha && (c :: cs).all isSchemeChar

def splitScheme (text : List Char) : List Char × List Char :=
  match splitAt? ':' text with
  | some (name, after) => if isScheme name then (name.map Char.toLower, after) else ([], text)
  | none => ([], text)

def endsAuthority (c : Char) : Bool := c == '/' || c == '?' || c == '#'

/-- The authority after two slashes in front of a text, if there is one, and the text after it. -/
def splitAuthority : List Char → Option (List Char) × List Char
  | '/' :: '/' :: after =>
    (some (after.takeWhile (!endsAuthority ·)), after.dropWhile (!endsAuthority ·))
  | text => (none, text)

def parse (text : String) : Uri :=
  let (scheme, hierarchy) := splitScheme text.toList
  let (authority?, location) := splitAuthority hierarchy
  let (resource, fragment) := splitAt '#' location
  let (path, query) := splitAt '?' resource
  { scheme := String.ofList scheme
    netloc := String.ofList (authority?.getD [])
    hasAuthority := authority?.isSome
    path := String.ofList path
    query := String.ofList query
    fragment := String.ofList fragment }

def isRelative (uri : Uri) : Bool := uri.scheme = "" ∧ uri.netloc = ""

def isRooted (text : String) : Bool := ['/'].isPrefixOf text.toList

/-- Whether a text starts with two slashes, and so would be read as an authority. -/
def opensAuthority (text : String) : Bool := ['/', '/'].isPrefixOf text.toList

/-- The text between scheme and path. An empty authority keeps a path from being read as one. -/
def authorityText (uri : Uri) : String :=
  if uri.hasAuthority = true ∨ uri.netloc ≠ "" then
    "//" ++ uri.netloc ++ if uri.path = "" ∨ isRooted uri.path then "" else "/"
  else if opensAuthority uri.path then "//"
  else ""

def text (uri : Uri) : String :=
  (if uri.scheme = "" then "" else uri.scheme ++ ":") ++ uri.authorityText ++ uri.path ++
    (if uri.query = "" then "" else "?" ++ uri.query) ++
    (if uri.fragment = "" then "" else "#" ++ uri.fragment)

instance : ToString Uri := ⟨text⟩

end Uri

end Markup
