import Markup.Tree.Scalar
import Markup.Uri.Query

set_option autoImplicit false

/-!
# Contexts

A context holds what a site has in common: the base URL in front of its rooted links, and the label
of the character set of its documents.
-/

namespace Markup

structure Context where
  baseUrl : String := ""
  encoding : String := "UTF-8"
deriving DecidableEq, Repr

namespace Context

/-- The base URL without the slash at its end. -/
def base (context : Context) : String :=
  match context.baseUrl.toList.reverse with
  | '/' :: rest => String.ofList rest.reverse
  | _ => context.baseUrl

/-- Puts the base URL in front of a rooted path that has no host. -/
def rebase (context : Context) (uri : Uri) : Uri :=
  if context.base ≠ "" ∧ uri.netloc = "" ∧ Uri.isRooted uri.path then
    { uri with path := context.base ++ uri.path }
  else uri

def uriOf (context : Context) (text : String) : Uri := context.rebase (Uri.parse text)

def toUri (context : Context) : Scalar → Except Error Uri
  | .str text => .ok (context.uriOf text)
  | .uri uri => .ok (context.rebase uri)
  | other => .error (.invalidUriInput other.literal)

def joinUrl (charset : Charset) (parts : List String) (query : List (String × String)) : String :=
  let encoded := Query.encode charset query
  String.join parts ++ if encoded = "" then "" else "?" ++ encoded

def url (context : Context) (charsets : Charsets) (parts : List String)
    (query : List (String × String)) : Except Error Uri :=
  (charsets.lookup context.encoding).map fun charset =>
    context.uriOf (joinUrl charset parts query)

theorem url_of_known {context : Context} {charsets : Charsets} {charset : Charset}
    (h : charsets.ofLabel? context.encoding = some charset) (parts : List String)
    (query : List (String × String)) :
    context.url charsets parts query = .ok (context.uriOf (joinUrl charset parts query)) := by
  rw [url, Charsets.lookup, h]
  rfl

theorem url_of_unknown {context : Context} {charsets : Charsets}
    (h : charsets.ofLabel? context.encoding = none) (parts : List String)
    (query : List (String × String)) :
    context.url charsets parts query = .error (.unknownEncoding context.encoding) := by
  rw [url, Charsets.lookup, h]
  rfl

def encodeQuery (context : Context) (charsets : Charsets) (query : List (String × String)) :
    Except Error String :=
  (charsets.lookup context.encoding).map fun charset => Query.encode charset query

end Context

end Markup
