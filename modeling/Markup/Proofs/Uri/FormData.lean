import Mathlib.Data.List.Basic
import Markup.Proofs.Text.Letters
import Markup.Proofs.Uri.Splitting
import Markup.Uri.Query

set_option autoImplicit false

/-!
# Form data

A reader of form data takes a plus sign for a space and a percent sign with two digits for a byte.
It gets back the bytes of every component, because the plus signs come only from spaces: in
percent-encoded text `%20` stands nowhere but where a space was. Keys and values hold neither of
the characters that separate them, so a query is read back as the pairs it was made from.
-/

namespace Markup.Query

/-! ## Reading -/

def hexValue? (c : Char) : Option Nat :=
  if '0' ≤ c ∧ c ≤ '9' then some (c.toNat - 0x30)
  else if 'A' ≤ c ∧ c ≤ 'F' then some (c.toNat - 0x37)
  else if 'a' ≤ c ∧ c ≤ 'f' then some (c.toNat - 0x57)
  else none

/-- The bytes that a text in form data stands for. A percent sign without two digits is itself. -/
def decodeBytes : List Char → List UInt8
  | [] => []
  | '+' :: rest => 0x20 :: decodeBytes rest
  | '%' :: high :: low :: rest =>
    match hexValue? high, hexValue? low with
    | some h, some l => UInt8.ofNat (16 * h + l) :: decodeBytes rest
    | _, _ => 0x25 :: decodeBytes (high :: low :: rest)
  | c :: rest => String.utf8EncodeChar c ++ decodeBytes rest

def decodeText? (written : List Char) : Option String :=
  String.fromUTF8? (decodeBytes written).toByteArray

def decodePair? (written : List Char) : Option (String × String) := do
  let (key, value) := Uri.splitAt '=' written
  return (← decodeText? key, ← decodeText? value)

/-- The pairs of a query. The empty text has none. -/
def decode? (query : String) : Option (List (String × String)) :=
  if query = "" then some [] else (query.toList.splitOn '&').mapM decodePair?

/-! ## Bytes -/

theorem hexValue?_hexDigit : ∀ n < 16, hexValue? (hexDigit n) = some n := by decide

theorem hexDigit_isAlphanum : ∀ n < 16, (hexDigit n).isAlphanum = true := by decide

theorem hexDigit_ne_percent : ∀ n < 16, hexDigit n ≠ '%' := by decide

theorem hexDigit_eq_two : ∀ n < 16, hexDigit n = '2' → n = 2 := by decide

theorem hexDigit_eq_zero : ∀ n < 16, hexDigit n = '0' → n = 0 := by decide

theorem isKept_iff {c : Char} :
    isKept c = true ↔ c.isAlphanum = true ∨ c ∈ ['_', '.', '-', '~'] := by
  simp [isKept, or_assoc]

theorem isKept_toNat {c : Char} (h : isKept c = true) :
    c.toNat < 0x80 ∧ c ≠ '%' ∧ c ≠ '+' ∧ c ≠ ' ' := by
  rcases isKept_iff.mp h with ha | hm
  · have hn : c.toNat ≤ 0x7A ∧ 0x30 ≤ c.toNat := by
      rcases Bool.or_eq_true_iff.mp ha with hl | hd
      · rcases Text.isAlpha_iff.mp hl with hu | hl
        · have bounds := Text.isUpper_iff_toNat.mp hu
          omega
        · have bounds := Text.isLower_iff_toNat.mp hl
          omega
      · have bounds : 48 ≤ c.toNat ∧ c.toNat ≤ 57 := Char.isDigit_iff_toNat.mp hd
        omega
    refine ⟨by omega, ?_, ?_, ?_⟩ <;> rintro rfl <;> exact absurd hn (by decide)
  · simp only [List.mem_cons, List.not_mem_nil, or_false] at hm
    rcases hm with rfl | rfl | rfl | rfl <;> decide

theorem toNat_ofNat_byte (byte : UInt8) : (Char.ofNat byte.toNat).toNat = byte.toNat := by
  have hb := byte.toNat_lt
  have hv : byte.toNat.isValidChar := Or.inl (by omega)
  rw [Char.ofNat, dif_pos hv]
  rfl

theorem percentByte_cases (byte : UInt8) :
    (isKept (Char.ofNat byte.toNat) = true ∧ percentByte byte = [Char.ofNat byte.toNat]) ∨
      percentByte byte = ['%', hexDigit (byte.toNat / 16), hexDigit (byte.toNat % 16)] := by
  unfold percentByte
  by_cases h : isKept (Char.ofNat byte.toNat) = true
  · left
    exact ⟨h, if_pos h⟩
  · right
    exact if_neg h

theorem nibbles_lt (byte : UInt8) : byte.toNat / 16 < 16 ∧ byte.toNat % 16 < 16 := by
  have hb := byte.toNat_lt
  omega

/-! ## Spaces -/

def encodeByte (byte : UInt8) : List Char := if byte = 0x20 then ['+'] else percentByte byte

theorem plusSpaces_cons {c : Char} (h : c ≠ '%') (rest : List Char) :
    plusSpaces (c :: rest) = c :: plusSpaces rest := by
  rw [plusSpaces]
  rintro _ rfl
  exact absurd rfl h

theorem plusSpaces_percent {high low : Char} (h : high ≠ '2' ∨ low ≠ '0') (rest : List Char) :
    plusSpaces ('%' :: high :: low :: rest) = '%' :: plusSpaces (high :: low :: rest) := by
  rw [plusSpaces]
  rintro _ - he
  simp only [List.cons.injEq] at he
  rcases h with h | h
  · exact h he.1
  · exact h he.2.1

/-- Percent-encoding one byte leaves no `%20` but that of a space, neither in the byte nor across
    its end: what follows a percent sign are its own two digits. -/
theorem plusSpaces_percentByte (byte : UInt8) (rest : List Char) :
    plusSpaces (percentByte byte ++ rest) = encodeByte byte ++ plusSpaces rest := by
  unfold encodeByte
  split
  · next hs => rw [hs]; rfl
  · next hs =>
    obtain ⟨hh, hl⟩ := nibbles_lt byte
    rcases percentByte_cases byte with ⟨hk, he⟩ | he
    · rw [he]
      exact plusSpaces_cons (isKept_toNat hk).2.1 rest
    · have hd : hexDigit (byte.toNat / 16) ≠ '2' ∨ hexDigit (byte.toNat % 16) ≠ '0' := by
        by_contra hn
        simp only [not_or, not_not] at hn
        have h₁ := hexDigit_eq_two _ hh hn.1
        have h₂ := hexDigit_eq_zero _ hl hn.2
        exact hs (UInt8.toNat_inj.mp (by change byte.toNat = 32; omega))
      simp only [he, List.cons_append, List.nil_append, plusSpaces_percent hd,
        plusSpaces_cons (hexDigit_ne_percent _ hh), plusSpaces_cons (hexDigit_ne_percent _ hl)]

theorem encodeBytes_eq (bytes : List UInt8) : encodeBytes bytes = bytes.flatMap encodeByte := by
  unfold encodeBytes percentBytes
  induction bytes with
  | nil => rfl
  | cons byte rest ih => rw [List.flatMap_cons, plusSpaces_percentByte, ih, List.flatMap_cons]

/-! ## Components -/

structure Encodes (written : List Char) (bytes : List UInt8) : Prop where
  alphabet : ∀ c ∈ written, c.isAlphanum = true ∨ c ∈ ['_', '.', '-', '~', '+', '%']
  escapes : ∀ before after, written = before ++ '%' :: after → ∃ high low rest,
    after = high :: low :: rest ∧ (hexValue? high).isSome = true ∧ (hexValue? low).isSome = true
  decoded : decodeBytes written = bytes

namespace Encodes

variable {written : List Char} {bytes : List UInt8}

theorem nil : Encodes [] [] where
  alphabet := nofun
  escapes := by
    intro before after h
    simp at h
  decoded := rfl

theorem escapes_cons (h : Encodes written bytes) {c : Char} (hc : c ≠ '%') :
    ∀ before after, c :: written = before ++ '%' :: after → ∃ high low rest,
      after = high :: low :: rest ∧ (hexValue? high).isSome = true ∧
        (hexValue? low).isSome = true := by
  intro before after he
  cases before with
  | nil => exact absurd (List.cons.inj he).1 hc
  | cons first more => exact h.escapes more after (List.cons.inj he).2

theorem plus (h : Encodes written bytes) : Encodes ('+' :: written) (0x20 :: bytes) where
  alphabet := by
    intro c hc
    rcases List.mem_cons.mp hc with rfl | hc
    · decide
    · exact h.alphabet c hc
  escapes := h.escapes_cons (by decide)
  decoded := by rw [decodeBytes, h.decoded]

theorem kept (h : Encodes written bytes) {byte : UInt8}
    (hk : isKept (Char.ofNat byte.toNat) = true) :
    Encodes (Char.ofNat byte.toNat :: written) (byte :: bytes) := by
  obtain ⟨ha, hp, hs, -⟩ := isKept_toNat hk
  refine ⟨fun c hc => ?_, h.escapes_cons hp, ?_⟩
  · rcases List.mem_cons.mp hc with rfl | hc
    · rcases isKept_iff.mp hk with hk | hk
      · exact Or.inl hk
      · exact Or.inr (List.mem_append_left ['+', '%'] hk)
    · exact h.alphabet c hc
  · have hu : String.utf8EncodeChar (Char.ofNat byte.toNat) = [byte] := by
      have hn : (Char.ofNat byte.toNat).val.toNat = byte.toNat := toNat_ofNat_byte byte
      rw [toNat_ofNat_byte] at ha
      have hle : byte.toNat ≤ 127 := by omega
      simp [String.utf8EncodeChar, hn, hle]
    rw [decodeBytes, hu, h.decoded, List.singleton_append]
    · exact hs
    · rintro _ _ _ he
      exact absurd he hp

theorem percent (h : Encodes written bytes) {high low : Nat} (hh : high < 16) (hl : low < 16) :
    Encodes ('%' :: hexDigit high :: hexDigit low :: written)
      (UInt8.ofNat (16 * high + low) :: bytes) := by
  have hv := hexValue?_hexDigit high hh
  have hw := hexValue?_hexDigit low hl
  refine ⟨fun c hc => ?_, fun before after he => ?_, ?_⟩
  · simp only [List.mem_cons] at hc
    rcases hc with rfl | rfl | rfl | hc
    · decide
    · exact Or.inl (hexDigit_isAlphanum high hh)
    · exact Or.inl (hexDigit_isAlphanum low hl)
    · exact h.alphabet c hc
  · cases before with
    | nil =>
      refine ⟨_, _, written, (List.cons.inj he).2.symm, ?_, ?_⟩
      · rw [hv]; rfl
      · rw [hw]; rfl
    | cons first more =>
      have inner := h.escapes_cons (hexDigit_ne_percent low hl)
      cases more with
      | nil => exact absurd (List.cons.inj (List.cons.inj he).2).1 (hexDigit_ne_percent high hh)
      | cons second more => exact inner more after (List.cons.inj (List.cons.inj he).2).2
  · simp only [decodeBytes, hv, hw, h.decoded]

theorem encodeByte_append (h : Encodes written bytes) (byte : UInt8) :
    Encodes (encodeByte byte ++ written) (byte :: bytes) := by
  unfold encodeByte
  split
  · next hs =>
    rw [hs]
    exact h.plus
  · rcases percentByte_cases byte with ⟨hk, he⟩ | he
    · rw [he]
      exact h.kept hk
    · obtain ⟨hh, hl⟩ := nibbles_lt byte
      have hb : UInt8.ofNat (16 * (byte.toNat / 16) + byte.toNat % 16) = byte := by
        rw [Nat.div_add_mod, UInt8.ofNat_toNat]
      have hp := h.percent hh hl
      rw [hb] at hp
      rw [he]
      exact hp

theorem encodeBytes (bytes : List UInt8) : Encodes (encodeBytes bytes) bytes := by
  rw [encodeBytes_eq]
  induction bytes with
  | nil => exact .nil
  | cons byte rest ih => exact ih.encodeByte_append byte

theorem component (charset : Charset) (text : String) :
    Encodes (component charset text).toList (charset.encode text) := by
  rw [Query.component, String.toList_ofList]
  exact .encodeBytes _

theorem not_mem (h : Encodes written bytes) {c : Char} (ha : c.isAlphanum = false)
    (hs : c ∉ ['_', '.', '-', '~', '+', '%']) : c ∉ written := by
  intro hc
  rcases h.alphabet c hc with hm | hm
  · rw [ha] at hm
    exact Bool.false_ne_true hm
  · exact hs hm

end Encodes

/-! ## Queries -/

theorem fromUTF8?_toUTF8 (text : String) : String.fromUTF8? text.toUTF8 = some text := by
  unfold String.fromUTF8?
  exact dif_pos text.isValidUTF8

theorem decodeText?_component {charset : Charset} (hu : charset.IsUtf8) (text : String) :
    decodeText? (component charset text).toList = some text := by
  have hb : (charset.encode text).toByteArray = text.toUTF8 := by
    rw [hu text, ByteArray.ext_iff, List.data_toByteArray]
  rw [decodeText?, (Encodes.component charset text).decoded, hb, fromUTF8?_toUTF8]

theorem toList_pair (charset : Charset) (key value : String) :
    (pair charset key value).toList =
      (component charset key).toList ++ '=' :: (component charset value).toList := by
  simp [pair]

theorem decodePair?_pair {charset : Charset} (hu : charset.IsUtf8) (key value : String) :
    decodePair? (pair charset key value).toList = some (key, value) := by
  have hk : '=' ∉ (component charset key).toList :=
    (Encodes.component charset key).not_mem (by decide) (by decide)
  have hs : Uri.splitAt '=' (pair charset key value).toList =
      ((component charset key).toList, (component charset value).toList) := by
    rw [toList_pair, Uri.splitAt_append_cons _ hk]
  simp [decodePair?, hs, decodeText?_component hu]

theorem not_mem_pair (charset : Charset) (key value : String) {c : Char}
    (ha : c.isAlphanum = false) (hs : c ∉ ['=', '_', '.', '-', '~', '+', '%']) :
    c ∉ (pair charset key value).toList := by
  rw [List.mem_cons, not_or] at hs
  have clear (text : String) : c ∉ (component charset text).toList :=
    (Encodes.component charset text).not_mem ha hs.2
  rw [toList_pair]
  simp [clear, hs.1]

theorem not_mem_encode (charset : Charset) (pairs : List (String × String)) {c : Char}
    (ha : c.isAlphanum = false) (hs : c ∉ ['&', '=', '_', '.', '-', '~', '+', '%']) :
    c ∉ (encode charset pairs).toList := by
  rw [List.mem_cons, not_or] at hs
  have clear (key value : String) := not_mem_pair charset key value ha hs.2
  unfold encode
  induction pairs with
  | nil => simp
  | cons first rest ih =>
    cases rest with
    | nil => simp [clear]
    | cons second rest =>
      have sep : c ∉ "&".toList := by simpa using hs.1
      rw [List.map_cons, List.map_cons, String.intercalate_cons_cons]
      simp only [String.toList_append, List.mem_append, not_or]
      exact ⟨⟨clear first.1 first.2, sep⟩, ih⟩

theorem mapM_decodePair? {charset : Charset} (hu : charset.IsUtf8)
    (pairs : List (String × String)) :
    (pairs.map fun (key, value) => (pair charset key value).toList).mapM decodePair? =
      some pairs := by
  induction pairs with
  | nil => rfl
  | cons first rest ih => simp [List.mapM_cons, decodePair?_pair hu, ih]

theorem splitOn_encode (charset : Charset) {pairs : List (String × String)} (h : pairs ≠ []) :
    (encode charset pairs).toList.splitOn '&' =
      pairs.map fun (key, value) => (pair charset key value).toList := by
  rw [encode, String.toList_intercalate, List.map_map]
  apply List.splitOn_intercalate
  · intro piece hp
    obtain ⟨⟨key, value⟩, -, rfl⟩ := List.mem_map.mp hp
    exact not_mem_pair charset key value (by decide) (by decide)
  · exact mt List.map_eq_nil_iff.mp h

theorem encode_ne_empty (charset : Charset) {pairs : List (String × String)} (h : pairs ≠ []) :
    encode charset pairs ≠ "" := by
  intro he
  have hs := splitOn_encode charset h
  -- the empty text is one empty piece, but every pair has its equals sign
  have hm : [] ∈ pairs.map fun (key, value) => (pair charset key value).toList := by
    rw [← hs, he]
    exact List.mem_singleton.mpr rfl
  obtain ⟨⟨key, value⟩, -, hn⟩ := List.mem_map.mp hm
  simp [toList_pair] at hn

theorem decode?_encode {charset : Charset} (hu : charset.IsUtf8)
    (pairs : List (String × String)) :
    decode? (encode charset pairs) = some pairs := by
  by_cases h : pairs = []
  · subst h
    rfl
  · rw [decode?, if_neg (encode_ne_empty charset h), splitOn_encode charset h,
      mapM_decodePair? hu]

/-- Nothing is lost in form data: every query in UTF-8 reads back as its pairs, and every component,
    in whatever character set, is made of plain characters and full escapes that read back as its
    bytes. -/
theorem query_encoding_lossless :
    (∀ charset : Charset, charset.IsUtf8 → ∀ pairs,
      decode? (encode charset pairs) = some pairs) ∧
      (∀ charset text, Encodes (component charset text).toList (charset.encode text)) ∧
        ∀ bytes, Encodes (encodeBytes bytes) bytes :=
  ⟨fun _ => decode?_encode, Encodes.component, Encodes.encodeBytes⟩

/-- A query with characters that separate pairs, and with an empty key. -/
theorem query_encoding_lossless_separators :
    let query := [("a&b", "c=d"), ("", "1+1 %20 é")]
    Charset.utf8.IsUtf8 ∧ decode? (encode .utf8 query) = some query := by
  intro query
  exact ⟨Charset.isUtf8_utf8, query_encoding_lossless.1 .utf8 Charset.isUtf8_utf8 query⟩

example : (component .utf8 "1+1 = %20").toList = "1%2B1+%3D+%2520".toList := by decide

end Markup.Query
