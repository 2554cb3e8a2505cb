set_option autoImplicit false

/-!
# JSON tokens

The tokens of a JSON text. A string is kept as it is written, in pieces: an escaped code unit may be
half of a surrogate pair, and whether its other half follows is not the concern of the tokens. A
number is kept by its digits.
-/

namespace Markup.Json

/-- A character of a string, or a code unit escaped by four hexadecimal digits. -/
inductive Piece where
  | char (c : Char)
  | unit (value : Nat)
deriving DecidableEq, Repr

/-- The digits after a sign. -/
structure Exponent where
  negative : Bool
  digits : List Char
deriving DecidableEq, Repr

structure Digits where
  negative : Bool
  whole : List Char
  fraction? : Option (List Char)
  exponent? : Option Exponent
deriving DecidableEq, Repr

inductive Token where
  | openList
  | closeList
  | openObject
  | closeObject
  | comma
  | colon
  | null
  | bool (value : Bool)
  | string (pieces : List Piece)
  | number (digits : Digits)
deriving DecidableEq, Repr

namespace Token

def isBlank (c : Char) : Bool := c == ' ' || c == '\t' || c == '\n' || c == '\r'

def hexValue? (c : Char) : Option Nat :=
  if '0' ≤ c ∧ c ≤ '9' then some (c.toNat - 0x30)
  else if 'a' ≤ c ∧ c ≤ 'f' then some (c.toNat - 0x57)
  else if 'A' ≤ c ∧ c ≤ 'F' then some (c.toNat - 0x37)
  else none

def unit? (a b c d : Char) : Option Nat := do
  return (((← hexValue? a) * 16 + (← hexValue? b)) * 16 + (← hexValue? c)) * 16 + (← hexValue? d)

def escaped? (c : Char) : Option Char :=
  match c with
  | '"' | '\\' | '/' => some c
  | 'b' => some '\x08'
  | 'f' => some '\x0c'
  | 'n' => some '\n'
  | 'r' => some '\r'
  | 't' => some '\t'
  | _ => none

def addPiece (piece? : Option Piece) (string? : Option (List Piece × List Char)) :
    Option (List Piece × List Char) :=
  match piece?, string? with
  | some piece, some (pieces, after) => some (piece :: pieces, after)
  | _, _ => none

theorem addPiece_eq_some {piece? : Option Piece} {string? : Option (List Piece × List Char)}
    {pieces : List Piece} {after : List Char} (h : addPiece piece? string? = some (pieces, after)) :
    ∃ others, string? = some (others, after) := by
  unfold addPiece at h
  split at h
  · simp only [Option.some.injEq, Prod.mk.injEq] at h
    exact ⟨_, by rw [h.2]⟩
  · simp at h

/-- The pieces of a string after its opening quote, and the text after its closing quote. -/
def scanString : List Char → Option (List Piece × List Char)
  | [] => none
  | '"' :: rest => some ([], rest)
  | '\\' :: 'u' :: a :: b :: c :: d :: rest =>
    addPiece ((unit? a b c d).map .unit) (scanString rest)
  | '\\' :: letter :: rest => addPiece ((escaped? letter).map .char) (scanString rest)
  | c :: rest =>
    addPiece (if c.toNat < 0x20 ∨ c = '\\' then none else some (.char c)) (scanString rest)

def scanDigits (text : List Char) : Option (List Char × List Char) :=
  if (text.takeWhile Char.isDigit).isEmpty then none
  else some (text.takeWhile Char.isDigit, text.dropWhile Char.isDigit)

/-- The whole part of a number. It starts with a zero only if it is zero. -/
def scanWhole : List Char → Option (List Char × List Char)
  | '0' :: rest => some (['0'], rest)
  | text => scanDigits text

def scanFraction : List Char → Option (Option (List Char) × List Char)
  | '.' :: rest => (scanDigits rest).map fun (digits, after) => (some digits, after)
  | text => some (none, text)

def scanSign : List Char → Bool × List Char
  | '-' :: rest => (true, rest)
  | '+' :: rest => (false, rest)
  | text => (false, text)

def scanExponent : List Char → Option (Option Exponent × List Char)
  | [] => some (none, [])
  | c :: rest =>
    if c = 'e' ∨ c = 'E' then
      let (negative, unsigned) := scanSign rest
      (scanDigits unsigned).map fun (digits, after) => (some ⟨negative, digits⟩, after)
    else some (none, c :: rest)

def scanNumber (text : List Char) : Option (Token × List Char) :=
  let negative := text.head? == some '-'
  (scanWhole (if negative then text.tail else text)).bind fun (whole, afterWhole) =>
    (scanFraction afterWhole).bind fun (fraction?, afterFraction) =>
      (scanExponent afterFraction).map fun (exponent?, after) =>
        (.number ⟨negative, whole, fraction?, exponent?⟩, after)

/-- The first token of a text that does not start with a blank, and the text after it. -/
def scan : List Char → Option (Token × List Char)
  | '[' :: rest => some (.openList, rest)
  | ']' :: rest => some (.closeList, rest)
  | '\x7b' :: rest => some (.openObject, rest)
  | '\x7d' :: rest => some (.closeObject, rest)
  | ',' :: rest => some (.comma, rest)
  | ':' :: rest => some (.colon, rest)
  | 'n' :: 'u' :: 'l' :: 'l' :: rest => some (.null, rest)
  | 't' :: 'r' :: 'u' :: 'e' :: rest => some (.bool true, rest)
  | 'f' :: 'a' :: 'l' :: 's' :: 'e' :: rest => some (.bool false, rest)
  | '"' :: rest => (scanString rest).map fun (pieces, after) => (.string pieces, after)
  | text => scanNumber text

theorem length_scanString {text after : List Char} {pieces : List Piece}
    (h : scanString text = some (pieces, after)) : after.length < text.length := by
  fun_induction scanString text generalizing pieces after with
  | case1 => simp at h
  | case2 => grind
  | case3 a b c d rest ih =>
    obtain ⟨others, ho⟩ := addPiece_eq_some h
    have := ih ho
    simp only [List.length_cons]
    omega
  | case4 letter rest _ ih =>
    obtain ⟨others, ho⟩ := addPiece_eq_some h
    have := ih ho
    simp only [List.length_cons]
    omega
  | case5 c rest _ _ _ ih =>
    obtain ⟨others, ho⟩ := addPiece_eq_some h
    have := ih ho
    simp only [List.length_cons]
    omega

theorem length_scanDigits {text digits after : List Char}
    (h : scanDigits text = some (digits, after)) : after.length < text.length := by
  have hl := congrArg List.length (List.takeWhile_append_dropWhile (p := Char.isDigit) (l := text))
  rw [List.length_append] at hl
  unfold scanDigits at h
  split at h
  · simp at h
  · next hd =>
    simp only [Option.some.injEq, Prod.mk.injEq] at h
    have : (text.takeWhile Char.isDigit).length ≠ 0 := by
      simpa [List.isEmpty_iff, List.length_eq_zero_iff] using hd
    rw [← h.2]
    omega

theorem length_scanWhole {text digits after : List Char}
    (h : scanWhole text = some (digits, after)) : after.length < text.length := by
  unfold scanWhole at h
  split at h
  · simp only [Option.some.injEq, Prod.mk.injEq] at h
    simp [h.2]
  · exact length_scanDigits h

theorem length_scanFraction {text after : List Char} {fraction? : Option (List Char)}
    (h : scanFraction text = some (fraction?, after)) : after.length ≤ text.length := by
  unfold scanFraction at h
  split at h
  · next rest =>
    simp only [Option.map_eq_some_iff, Prod.exists, Prod.mk.injEq] at h
    obtain ⟨digits, _, hd, _, rfl⟩ := h
    have := length_scanDigits hd
    simp only [List.length_cons]
    omega
  · simp only [Option.some.injEq, Prod.mk.injEq] at h
    simp [h.2]

theorem length_scanSign (text : List Char) : (scanSign text).2.length ≤ text.length := by
  unfold scanSign
  split <;> simp

theorem length_scanExponent {text after : List Char} {exponent? : Option Exponent}
    (h : scanExponent text = some (exponent?, after)) : after.length ≤ text.length := by
  unfold scanExponent at h
  split at h
  · simp only [Option.some.injEq, Prod.mk.injEq] at h
    simp [h.2]
  · next c rest =>
    split at h
    · simp only [Option.map_eq_some_iff, Prod.exists, Prod.mk.injEq] at h
      obtain ⟨digits, _, hd, _, rfl⟩ := h
      have := length_scanDigits hd
      have := length_scanSign rest
      simp only [List.length_cons]
      omega
    · simp only [Option.some.injEq, Prod.mk.injEq] at h
      simp [h.2]

theorem length_scanNumber {text after : List Char} {token : Token}
    (h : scanNumber text = some (token, after)) : after.length < text.length := by
  simp only [scanNumber, Option.bind_eq_some_iff, Option.map_eq_some_iff, Prod.exists,
    Prod.mk.injEq] at h
  obtain ⟨_, _, hw, _, _, hf, _, _, he, _, rfl⟩ := h
  have := length_scanWhole hw
  have := length_scanFraction hf
  have := length_scanExponent he
  have : (if (text.head? == some '-') = true then text.tail else text).length ≤ text.length := by
    split <;> simp
  omega

theorem length_scan {text after : List Char} {token : Token}
    (h : scan text = some (token, after)) : after.length < text.length := by
  unfold scan at h
  split at h
  case h_10 rest =>
    simp only [Option.map_eq_some_iff, Prod.exists, Prod.mk.injEq] at h
    obtain ⟨_, _, hs, _, rfl⟩ := h
    have := length_scanString hs
    simp only [List.length_cons]
    omega
  case h_11 => exact length_scanNumber h
  all_goals
    simp only [Option.some.injEq, Prod.mk.injEq] at h
    simp only [← h.2, List.length_cons]
    omega

def all? (text : List Char) : Option (List Token) :=
  match text with
  | [] => some []
  | c :: rest =>
    if isBlank c then all? rest
    else
      match h : scan (c :: rest) with
      | none => none
      | some (token, after) =>
        have := length_scan h
        (all? after).map (token :: ·)
termination_by text.length
decreasing_by
  · exact Nat.lt_succ_self rest.length
  · assumption

end Token

end Markup.Json
