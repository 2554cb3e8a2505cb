import Markup.Text.Quoted

set_option autoImplicit false

/-!
# Errors

What can go wrong between a tree and its markup. Trees and scalars stand in an error by their
literals.
-/

namespace Markup

inductive Error where
  /-- An element list that is empty or does not start with a tag. -/
  | malformedElement (element : String)
  | voidTagWithChildren (tag : String)
  | strayAttributes (attrs : String)
  /-- A scalar that is neither text nor a URI where a URI is needed. -/
  | invalidUriInput (input : String)
  | unknownEncoding (label : String)
  | unknownMode (name : String)
deriving DecidableEq, Repr

def Error.message : Error → String
  | .malformedElement element => element ++ " is not a well-formed element list"
  | .voidTagWithChildren tag => "\x27" ++ tag ++ "\x27 cannot have children"
  | .strayAttributes attrs =>
    "attributes map " ++ attrs ++ " must directly follow a tag name"
  | .invalidUriInput input => input ++ " should be a string or a URI"
  | .unknownEncoding label => "unknown text encoding " ++ Text.quoted label
  | .unknownMode name =>
    "unknown render mode " ++ Text.quoted name ++ ", expected one of html, xhtml, xml or sgml"

end Markup
