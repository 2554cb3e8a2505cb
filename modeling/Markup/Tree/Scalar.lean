import Markup.Number.Numeral
import Markup.Text.Quoted
import Markup.Uri.Basic

set_option autoImplicit false

/-!
# Scalars

The leaves of a tree and of its attributes. A scalar has a text, which markup shows, and a literal,
which messages show and which tells apart scalars of different kinds.
-/

namespace Markup

inductive Scalar where
  | str (text : String)
  | int (value : Int)
  | float (value : Binary64)
  | bool (value : Bool)
  /-- An exact fraction, shown as the nearest double. -/
  | fraction (value : Rat)
  | uri (value : Uri)

namespace Scalar

def text : Scalar → String
  | .str text => text
  | .int value => toString value
  | .float value => value.text
  | .bool value => if value then "true" else "false"
  | .fraction value => (Binary64.ofRat value).text
  | .uri value => value.text

def literal : Scalar → String
  | .str text => Text.quoted text
  | .int value => toString value
  | .float value => value.text
  | .bool value => if value then "true" else "false"
  | .fraction value => toString value.num ++ "/" ++ toString value.den
  | .uri value => "uri(" ++ Text.quoted value.text ++ ")"

def asString? : Scalar → Option String
  | .str text => some text
  | _ => none

def asBool? : Scalar → Option Bool
  | .bool value => some value
  | _ => none

/-- The scalars for which an attribute is left out: `false` and the empty text. -/
def isFalsy : Scalar → Bool
  | .bool value => !value
  | .str text => text = ""
  | _ => false

protected def beq : Scalar → Scalar → Bool
  | .str a, .str b => a == b
  | .int a, .int b => a == b
  | .float a, .float b => a.numEq b
  | .bool a, .bool b => a == b
  | .fraction a, .fraction b => a == b
  | .uri a, .uri b => a == b
  | _, _ => false

instance : BEq Scalar := ⟨Scalar.beq⟩

end Scalar

end Markup
