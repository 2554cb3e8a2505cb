import Mathlib.Data.List.Basic
import Markup.Json.Settings

set_option autoImplicit false

/-!
# Kept settings

Settings that are kept as a JSON text are read from it as they were. From any object, they are read
by the names of the members alone: order plays no part, nor does what has another name.
-/

namespace Markup.Json

/-! ## Strings -/

/-- The characters that a JSON string escapes by a letter, with it. -/
def letterEscapes : List (Char × Char) :=
  [('"', '"'), ('\\', '\\'), ('\x08', 'b'), ('\x0c', 'f'), ('\n', 'n'), ('\r', 'r'), ('\t', 't')]

def digitEscape (n : ℕ) : List Char :=
  ['\\', 'u', '0', '0', Nat.digitChar (n / 16), Nat.digitChar (n % 16)]

theorem escapeChar_letter : ∀ pair ∈ letterEscapes, escapeChar pair.1 = ['\\', pair.2] ∧
    pair.2 ≠ 'u' ∧ Token.escaped? pair.2 = some pair.1 := by
  decide

theorem escapeChar_control : ∀ n < 0x20, Char.ofNat n ∉ letterEscapes.map Prod.fst →
    escapeChar (Char.ofNat n) = digitEscape n ∧
      Token.unit? '0' '0' (Nat.digitChar (n / 16)) (Nat.digitChar (n % 16)) = some n := by
  decide

theorem escapeChar_plain {c : Char} (hl : c ∉ letterEscapes.map Prod.fst) (hc : ¬ c.toNat < 0x20) :
    escapeChar c = [c] := by
  have hs : ¬ c.toNat < 0x10 := by omega
  simp only [letterEscapes, List.map_cons, List.map_nil, List.mem_cons, not_or] at hl
  simp [escapeChar, hl, hc, hs]

def piece (c : Char) : Piece :=
  if c ∈ letterEscapes.map Prod.fst ∨ ¬ c.toNat < 0x20 then .char c else .unit c.toNat

def pieces (text : String) : List Piece := text.toList.map piece

theorem scanString_escapeChar (c : Char) (rest : List Char) :
    Token.scanString (escapeChar c ++ rest) =
      Token.addPiece (some (piece c)) (Token.scanString rest) := by
  by_cases hl : c ∈ letterEscapes.map Prod.fst
  · obtain ⟨pair, hp, rfl⟩ := List.mem_map.mp hl
    obtain ⟨he, hu, hs⟩ := escapeChar_letter pair hp
    rw [he, piece, if_pos (.inl hl), List.cons_append, List.singleton_append, Token.scanString, hs]
    · rfl
    · simp [hu]
  · by_cases hc : c.toNat < 0x20
    · obtain ⟨he, hd⟩ := escapeChar_control c.toNat hc (by rwa [Char.ofNat_toNat])
      rw [Char.ofNat_toNat] at he
      rw [he, piece, if_neg (by simp [hl, hc]), digitEscape]
      simp only [List.cons_append, List.nil_append]
      rw [Token.scanString, hd]
      rfl
    · have hq : c ≠ '"' := by
        rintro rfl
        exact hl (by decide)
      have hb : c ≠ '\\' := by
        rintro rfl
        exact hl (by decide)
      have hn : ¬ (c.toNat < 0x20 ∨ c = '\\') := not_or.mpr ⟨hc, hb⟩
      rw [escapeChar_plain hl hc, piece, if_pos (.inr hc), List.singleton_append, Token.scanString,
        if_neg hn]
      all_goals simp [hq, hb]

theorem scanString_escaped (cs rest : List Char) :
    Token.scanString (cs.flatMap escapeChar ++ '"' :: rest) = some (cs.map piece, rest) := by
  induction cs with
  | nil => rfl
  | cons c cs ih =>
    rw [List.flatMap_cons, List.append_assoc, scanString_escapeChar, ih]
    rfl

theorem characters?_unit {value : ℕ} (h : value < 0xD800) (rest : List Piece) :
    characters? (.unit value :: rest) = (characters? rest).map (Char.ofNat value :: ·) := by
  have hh : isHighSurrogate value = false := by
    simp only [isHighSurrogate, Bool.and_eq_false_iff, decide_eq_false_iff_not]
    omega
  have hl : isLowSurrogate value = false := by
    simp only [isLowSurrogate, Bool.and_eq_false_iff, decide_eq_false_iff_not]
    omega
  rcases rest with _ | ⟨_ | _, _⟩ <;> simp [characters?, hh, hl]

theorem characters?_map_piece (cs : List Char) : characters? (cs.map piece) = some cs := by
  induction cs with
  | nil => rfl
  | cons c cs ih =>
    rw [List.map_cons, piece]
    split
    · rw [characters?, ih]
      rfl
    · next hc =>
      rw [characters?_unit (by omega), ih, Char.ofNat_toNat]
      rfl

@[simp] theorem string?_pieces (text : String) : string? (pieces text) = some text := by
  rw [string?, pieces, characters?_map_piece, Option.map_some, String.ofList_toList]

/-! ## Tokens -/

namespace Token

/-- A text that makes up some tokens, whatever comes next. -/
def Spells (text : String) (tokens : List Token) : Prop :=
  ∀ rest, all? (text.toList ++ rest) = (all? rest).map (tokens ++ ·)

variable {first second : String} {tokens others : List Token}

theorem Spells.append (hf : Spells first tokens) (hs : Spells second others) :
    Spells (first ++ second) (tokens ++ others) := by
  intro rest
  rw [String.toList_append, List.append_assoc, hf, hs, Option.map_map]
  congr 1
  funext more
  exact (List.append_assoc ..).symm

theorem Spells.all? (h : Spells first tokens) : all? first.toList = some tokens := by
  have hn := h []
  rw [List.append_nil, Token.all?, Option.map_some, List.append_nil] at hn
  exact hn

theorem spells_of_scan {c : Char} {text : List Char} {token : Token} (hb : isBlank c = false)
    (hs : ∀ rest, scan (c :: (text ++ rest)) = some (token, rest)) :
    Spells (String.ofList (c :: text)) [token] := by
  intro rest
  rw [String.toList_ofList, List.cons_append, Token.all?, if_neg (by simp [hb])]
  split
  · next hn => cases hn.symm.trans (hs rest)
  · next token' after hn =>
    cases hn.symm.trans (hs rest)
    rfl

theorem spells_quoted (text : String) : Spells (quoted text) [.string (pieces text)] := by
  rw [quoted, List.cons_append]
  refine spells_of_scan rfl fun rest => ?_
  change (scanString _).map _ = _
  rw [List.append_assoc, List.singleton_append, scanString_escaped]
  rfl

theorem spells_string (text : String) : Spells (Json.string text).text [.string (pieces text)] := by
  rw [Json.text]
  exact spells_quoted text

theorem spells_comma : Spells "," [.comma] := spells_of_scan rfl fun _ => rfl

theorem spells_colon : Spells ":" [.colon] := spells_of_scan rfl fun _ => rfl

theorem spells_openObject : Spells "\x7b" [.openObject] := spells_of_scan rfl fun _ => rfl

theorem spells_closeObject : Spells "\x7d" [.closeObject] := spells_of_scan rfl fun _ => rfl

theorem spells_bool (value : Bool) : Spells (Json.bool value).text [.bool value] := by
  cases value with
  | true => exact spells_of_scan rfl fun _ => rfl
  | false => exact spells_of_scan rfl fun _ => rfl

end Token

/-! ## Objects of two members -/

open Token in
theorem spells_object {firstKey secondKey : String} {first second : Json}
    {firstToken secondToken : Token} (hf : Spells first.text [firstToken])
    (hs : Spells second.text [secondToken]) :
    Spells (Json.object [(firstKey, first), (secondKey, second)]).text
      [.openObject, .string (pieces firstKey), .colon, firstToken, .comma,
        .string (pieces secondKey), .colon, secondToken, .closeObject] := by
  have member (key : String) {value : Json} {token : Token} (h : Spells value.text [token]) :
      Spells (quoted key ++ ":" ++ value.text) [.string (pieces key), .colon, token] :=
    ((spells_quoted key).append spells_colon).append h
  have hm := ((spells_openObject.append (member firstKey hf)).append spells_comma).append
    ((member secondKey hs).append spells_closeObject)
  simpa [text, memberTexts, String.intercalate_cons_cons, String.append_assoc] using hm

theorem parse?_mode (mode : Mode) :
    Document.parse? (ofMode mode).text = some (.string (pieces mode.name)) := by
  rw [Document.parse?, ofMode, (Token.spells_string mode.name).all?]
  rfl

theorem parse?_options (options : RenderOptions) :
    Document.parse? (ofOptions options).text = some (.object [
      (pieces "mode", .string (pieces options.mode.name)),
      (pieces "escape_strings", .bool options.escapeStrings)]) := by
  rw [Document.parse?, ofOptions, ofMode,
    (spells_object (Token.spells_string options.mode.name) (Token.spells_bool _)).all?]
  rfl

theorem parse?_context (context : Context) :
    Document.parse? (ofContext context).text = some (.object [
      (pieces "base_url", .string (pieces context.baseUrl)),
      (pieces "encoding", .string (pieces context.encoding))]) := by
  rw [Document.parse?, ofContext,
    (spells_object (Token.spells_string context.baseUrl) (Token.spells_string _)).all?]
  rfl

namespace Document

theorem asMode?_name (mode : Mode) : asMode? (.string (pieces mode.name)) = some mode := by
  rw [asMode?, asString?, string?_pieces]
  cases mode <;> rfl

theorem members?_pair {first second : String} (hne : first ≠ second) (a b : Document) :
    members? first second (.object [(pieces first, a), (pieces second, b)]) =
      some (some a, some b) := by
  simp [members?, member?, hne, hne.symm]

/-! ## Any objects -/

/-- The members of an object by the texts of their keys. -/
def named? (members : List (List Piece × Document)) : Option (List (String × Document)) :=
  members.mapM fun (key, value) => (string? key).map (·, value)

def ofNames (first second : String) (named : List (String × Document)) :
    List (String × Document) :=
  named.filter fun member => member.1 == first || member.1 == second

variable {named renamed : List (String × Document)}

theorem member?_perm (h : named.Perm renamed) (name : String) :
    member? named name = member? renamed name := by
  have hp := h.filter fun member => member.1 == name
  unfold member?
  generalize named.filter _ = found at hp
  generalize renamed.filter _ = others at hp
  rcases found with _ | ⟨a, _ | ⟨b, found⟩⟩
  · rw [List.nil_perm.mp hp]
  · rw [List.singleton_perm.mp hp]
  · rcases others with _ | ⟨c, _ | ⟨d, others⟩⟩
    · cases List.perm_nil.mp hp
    · cases List.perm_singleton.mp hp
    · rfl

theorem member?_ofNames (first second : String) (named : List (String × Document)) :
    member? (ofNames first second named) first = member? named first ∧
      member? (ofNames first second named) second = member? named second := by
  have kept {name : String} (hn : name = first ∨ name = second) :
      (ofNames first second named).filter (·.1 == name) = named.filter (·.1 == name) := by
    rw [ofNames, List.filter_filter]
    refine List.filter_congr fun member _ => ?_
    rcases hn with rfl | rfl <;> grind
  rw [member?, member?, member?, member?, kept (.inl rfl), kept (.inr rfl)]
  exact ⟨rfl, rfl⟩

theorem members?_object {members : List (List Piece × Document)}
    (hm : named? members = some named) (first second : String) :
    members? first second (.object members) = (member? named first).bind fun one =>
      (member? named second).map fun other => (one, other) := by
  unfold named? at hm
  simp only [members?, hm, bind, pure, Option.bind_some]
  cases member? named first with
  | none => rfl
  | some one => cases member? named second <;> rfl

theorem members?_congr {members others : List (List Piece × Document)} {first second : String}
    (hm : named? members = some named) (ho : named? others = some renamed)
    (hp : (ofNames first second named).Perm (ofNames first second renamed)) :
    members? first second (.object members) = members? first second (.object others) := by
  obtain ⟨hf, hs⟩ := member?_ofNames first second named
  obtain ⟨hf', hs'⟩ := member?_ofNames first second renamed
  rw [members?_object hm, members?_object ho, ← hf, ← hs, ← hf', ← hs', member?_perm hp,
    member?_perm hp]

theorem member?_eq_none_iff {name : String} :
    member? named name = none ↔ 2 ≤ (named.filter (·.1 == name)).length := by
  unfold member?
  generalize named.filter _ = found
  rcases found with _ | ⟨a, _ | ⟨b, found⟩⟩ <;> simp

theorem members?_eq_none_iff {members : List (List Piece × Document)}
    (hm : named? members = some named) {first second : String} :
    members? first second (.object members) = none ↔
      ∃ name ∈ [first, second], 2 ≤ (named.filter (·.1 == name)).length := by
  rw [members?_object hm]
  simp only [List.mem_cons, List.not_mem_nil, or_false, exists_eq_or_imp, exists_eq_left,
    ← member?_eq_none_iff]
  cases member? named first with
  | none => simp
  | some one => simp

end Document

/-- Modes, options and contexts are read from the JSON texts that they are kept in. -/
theorem settings_kept :
    (∀ mode, (Document.parse? (ofMode mode).text).bind Document.asMode? = some mode) ∧
    (∀ options, (Document.parse? (ofOptions options).text).bind Document.options? =
      some options) ∧
    ∀ context, (Document.parse? (ofContext context).text).bind Document.context? =
      some context := by
  refine ⟨fun mode => ?_, fun options => ?_, fun context => ?_⟩
  · rw [parse?_mode, Option.bind_some, Document.asMode?_name]
  · rw [parse?_options, Option.bind_some, Document.options?, Document.members?_pair (by decide)]
    simp [Document.readOr, Document.asMode?_name, Document.asBool?]
  · rw [parse?_context, Option.bind_some, Document.context?, Document.members?_pair (by decide)]
    simp [Document.readOr, Document.asString?]

/-- Settings are read from an object by the names of its members: objects whose members of those
names are the same up to order give the same, and a name that comes twice is refused. -/
theorem settings_by_name {members others : List (List Piece × Document)}
    {named renamed : List (String × Document)} (hm : Document.named? members = some named)
    (ho : Document.named? others = some renamed) :
    ((Document.ofNames "mode" "escape_strings" named).Perm
        (Document.ofNames "mode" "escape_strings" renamed) →
      (Document.object members).options? = (Document.object others).options?) ∧
    ((Document.ofNames "base_url" "encoding" named).Perm
        (Document.ofNames "base_url" "encoding" renamed) →
      (Document.object members).context? = (Document.object others).context?) ∧
    (∀ name ∈ ["mode", "escape_strings"], 2 ≤ (named.filter (·.1 == name)).length →
      (Document.object members).options? = none) ∧
    ∀ name ∈ ["base_url", "encoding"], 2 ≤ (named.filter (·.1 == name)).length →
      (Document.object members).context? = none := by
  refine ⟨fun hp => ?_, fun hp => ?_, fun name hn ht => ?_, fun name hn ht => ?_⟩
  · rw [Document.options?, Document.options?, Document.members?_congr hm ho hp]
  · rw [Document.context?, Document.context?, Document.members?_congr hm ho hp]
  · rw [Document.options?, (Document.members?_eq_none_iff hm).mpr ⟨name, hn, ht⟩]
    rfl
  · rw [Document.context?, (Document.members?_eq_none_iff hm).mpr ⟨name, hn, ht⟩]
    rfl

end Markup.Json
