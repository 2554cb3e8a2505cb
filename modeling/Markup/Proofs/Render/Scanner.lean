import Markup.Proofs.Render.Escaping
import Markup.Proofs.Text.Spans
import Markup.Proofs.Uri.Splitting

set_option autoImplicit false

/-!
# A scanner for markup

A reader of markup that knows nothing of the tree. Texts go up to the next opening bracket, and
tags up to the next closing one; in between there are a name and attributes, bare or with a value
in double quotes. A tag that closes by itself, or is void, counts as a start and an end.
-/

namespace Markup

inductive Mark where
  | start (name : String) (attributes : List (String × String))
  | stop (name : String)
deriving DecidableEq, Repr

/-- The tags of some markup in order, with the text before the first and the texts behind each. -/
structure Outline where
  lead : String
  marks : List (Mark × String)
deriving DecidableEq, Repr

namespace Outline

def ofText (text : String) : Outline := ⟨text, []⟩

def addText (text : String) (outline : Outline) : Outline := ⟨text ++ outline.lead, outline.marks⟩

def addMark (mark : Mark) (outline : Outline) : Outline :=
  ⟨"", (mark, outline.lead) :: outline.marks⟩

def addMarks (marks : List Mark) (outline : Outline) : Outline := marks.foldr addMark outline

@[simp] theorem addMarks_nil : addMarks [] = id := rfl

@[simp] theorem addMarks_cons (mark : Mark) (marks : List Mark) :
    addMarks (mark :: marks) = addMark mark ∘ addMarks marks := rfl

@[simp] theorem addText_empty (outline : Outline) : outline.addText "" = outline := by
  simp [addText]

theorem addText_addText (text more : String) (outline : Outline) :
    (outline.addText more).addText text = outline.addText (text ++ more) := by
  simp [addText, String.append_assoc]

end Outline

def unescaped (text : List Char) : String := String.ofList (unescape "&apos;" text)

def isKeyChar (c : Char) : Bool := !(Text.isBlank c || c == '=')

/-- An attribute in front of a text, and the text after it. A bare key is its own value. -/
def readAttribute? (text : List Char) : Option ((String × String) × List Char) :=
  let key := text.takeWhile isKeyChar
  if key = [] then none
  else
    match text.dropWhile isKeyChar with
    | '=' :: '"' :: after =>
      (Uri.splitAt? '"' after).map fun (value, rest) =>
        ((String.ofList key, unescaped value), rest)
    | '=' :: _ => none
    | rest => some ((String.ofList key, String.ofList key), rest)

theorem length_readAttribute? {text rest : List Char} {entry : String × String}
    (h : readAttribute? text = some (entry, rest)) : rest.length < text.length := by
  have ht := congrArg List.length (List.takeWhile_append_dropWhile (p := isKeyChar) (l := text))
  rw [List.length_append] at ht
  unfold readAttribute? at h
  dsimp only at h
  split at h
  · cases h
  · next hk =>
    have hl := List.length_pos_iff.mpr hk
    split at h
    · next after hd =>
      obtain ⟨⟨value, more⟩, hs, hv⟩ := Option.map_eq_some_iff.mp h
      cases hv
      change more.length < text.length
      rw [hd, (Uri.splitAt?_eq_some_iff.mp hs).1] at ht
      simp only [List.length_cons, List.length_append] at ht
      omega
    · cases h
    · cases h
      omega

def readAttributes (text : List Char) : Option (List (String × String)) :=
  match _h : text.dropWhile Text.isBlank with
  | [] => some []
  | c :: more =>
    match _ha : readAttribute? (c :: more) with
    | none => none
    | some (entry, rest) => (readAttributes rest).map (entry :: ·)
termination_by text.length
decreasing_by
  have hr := length_readAttribute? _ha
  have hl := (List.dropWhile_sublist Text.isBlank (l := text)).length_le
  rw [_h] at hl
  omega

def readStart? (body : List Char) : Option (String × List (String × String)) :=
  (readAttributes (body.dropWhile (!Text.isBlank ·))).map fun attributes =>
    (String.ofList (body.takeWhile (!Text.isBlank ·)), attributes)

def readTag (inside : List Char) : Option (List Mark) :=
  match inside with
  | '/' :: name => some [.stop (String.ofList name)]
  | inside =>
    let closed := inside.getLast? = some '/'
    (readStart? (if closed then inside.dropLast else inside)).map fun (name, attributes) =>
      if closed ∨ Tag.isVoidName name then [.start name attributes, .stop name]
      else [.start name attributes]

/-- The outline of some markup, unless a tag is unfinished or unreadable. -/
def scan (input : List Char) : Option Outline :=
  match _h : Uri.splitAt? '<' input with
  | none => some (.ofText (unescaped input))
  | some (text, rest) =>
    match _ht : Uri.splitAt? '>' rest with
    | none => none
    | some (inside, after) =>
      (readTag inside).bind fun marks =>
        (scan after).map fun outline => (outline.addMarks marks).addText (unescaped text)
termination_by input.length
decreasing_by
  rw [(Uri.splitAt?_eq_some_iff.mp _h).1, (Uri.splitAt?_eq_some_iff.mp _ht).1]
  simp only [List.length_append, List.length_cons]
  omega

/-! ## Attributes -/

theorem readAttributes_eq (text : List Char) : readAttributes text =
    match text.dropWhile Text.isBlank with
    | [] => some []
    | c :: more =>
      match readAttribute? (c :: more) with
      | none => none
      | some (entry, rest) => (readAttributes rest).map (entry :: ·) := by
  rw [readAttributes]
  split
  · next h => rw [h]
  · next h =>
    rw [h]
    dsimp only
    split
    · next he => rw [he]
    · next he => rw [he]

theorem readAttributes_blank {text : List Char} (h : ∀ c ∈ text, Text.isBlank c = true) :
    readAttributes text = some [] := by
  rw [readAttributes_eq, List.dropWhile_eq_nil_iff.mpr h]

theorem readAttributes_of_readAttribute? {text rest : List Char} {entry : String × String}
    (h : readAttribute? (text.dropWhile Text.isBlank) = some (entry, rest)) :
    readAttributes text = (readAttributes rest).map (entry :: ·) := by
  rw [readAttributes_eq]
  split
  · next he =>
    rw [he] at h
    exact absurd (length_readAttribute? h) (Nat.not_lt_zero _)
  · next c more he =>
    rw [he] at h
    rw [h]

/-! ## Texts and tags -/

section Tags

variable {name : String} {attributes : List (String × String)}

theorem readTag_of_head?_ne {inside : List Char} (h : inside.head? ≠ some '/') :
    readTag inside =
      (readStart? (if inside.getLast? = some '/' then inside.dropLast else inside)).map
        fun (name, attributes) =>
          if inside.getLast? = some '/' ∨ Tag.isVoidName name then
            [.start name attributes, .stop name]
          else [.start name attributes] := by
  unfold readTag
  split
  · exact absurd rfl h
  · rfl

theorem readTag_open {inside : List Char} (hf : inside.head? ≠ some '/')
    (hl : inside.getLast? ≠ some '/') (hs : readStart? inside = some (name, attributes)) :
    readTag inside = some (if Tag.isVoidName name then [.start name attributes, .stop name]
      else [.start name attributes]) := by
  rw [readTag_of_head?_ne hf, if_neg hl, hs]
  simp only [Option.map_some, hl, false_or]

theorem readTag_selfClosing {body : List Char} (hf : (body ++ ['/']).head? ≠ some '/')
    (hs : readStart? body = some (name, attributes)) :
    readTag (body ++ ['/']) = some [.start name attributes, .stop name] := by
  have hl : (body ++ ['/']).getLast? = some '/' := List.getLast?_concat
  rw [readTag_of_head?_ne hf, if_pos hl, List.dropLast_concat, hs]
  simp only [Option.map_some, hl, true_or, if_true]

end Tags

theorem scan_eq (input : List Char) : scan input =
    match Uri.splitAt? '<' input with
    | none => some (.ofText (unescaped input))
    | some (text, rest) =>
      match Uri.splitAt? '>' rest with
      | none => none
      | some (inside, after) =>
        (readTag inside).bind fun marks =>
          (scan after).map fun outline => (outline.addMarks marks).addText (unescaped text) := by
  rw [scan]
  split
  · next h => rw [h]
  · next h =>
    rw [h]
    dsimp only
    split
    · next ht => rw [ht]
    · next ht => rw [ht]

theorem scan_of_no_tag {text : List Char} (h : '<' ∉ text) :
    scan text = some (.ofText (unescaped text)) := by
  rw [scan_eq, Uri.splitAt?_eq_none h]

theorem scan_of_unclosed {text rest : List Char} (ht : '<' ∉ text) (hr : '>' ∉ rest) :
    scan (text ++ '<' :: rest) = none := by
  rw [scan_eq, Uri.splitAt?_append_cons rest ht]
  dsimp only
  rw [Uri.splitAt?_eq_none hr]

theorem scan_of_tag {text inside : List Char} (after : List Char) (ht : '<' ∉ text)
    (hi : '>' ∉ inside) : scan (text ++ '<' :: (inside ++ '>' :: after)) =
      (readTag inside).bind fun marks =>
        (scan after).map fun outline => (outline.addMarks marks).addText (unescaped text) := by
  rw [scan_eq, Uri.splitAt?_append_cons _ ht]
  dsimp only
  rw [Uri.splitAt?_append_cons after hi]

@[simp] theorem unescaped_nil : unescaped [] = "" := by
  rw [unescaped, unescape_nil]

theorem scan_tag {inside : List Char} {marks : List Mark} (after : List Char) (hi : '>' ∉ inside)
    (hr : readTag inside = some marks) :
    scan ('<' :: (inside ++ '>' :: after)) = (scan after).map (Outline.addMarks marks) := by
  have h := scan_of_tag after List.not_mem_nil hi
  rw [hr, Option.bind_some] at h
  simpa using h

theorem apostropheEntity_eq {mode : Mode} (hm : mode ≠ .sgml) :
    mode.apostropheEntity = "&apos;" := by
  cases mode with
  | html | xhtml | xml => rfl
  | sgml => exact absurd rfl hm

theorem unescaped_escape_append {mode : Mode} (hm : mode ≠ .sgml) (text : String)
    (rest : List Char) :
    unescaped ((mode.escape text).toList ++ rest) = text ++ unescaped rest := by
  rw [unescaped, unescaped, ← apostropheEntity_eq hm, unescape_escape_append, String.ofList_append,
    String.ofList_toList]

theorem unescaped_escape {mode : Mode} (hm : mode ≠ .sgml) (text : String) :
    unescaped (mode.escape text).toList = text := by
  rw [unescaped, ← apostropheEntity_eq hm, unescape_escape, String.ofList_toList]

theorem not_mem_escape {mode : Mode} {text : String} {mark : Char}
    (hm : isStructural mark = true) : mark ∉ (mode.escape text).toList := by
  intro hc
  rw [isStructural_of_mem_escape hc] at hm
  cases hm

theorem scan_escape_append {mode : Mode} (hm : mode ≠ .sgml) (text : String) (rest : List Char) :
    scan ((mode.escape text).toList ++ rest) = (scan rest).map (Outline.addText text) := by
  have hl : '<' ∉ (mode.escape text).toList := not_mem_escape rfl
  by_cases hr : '<' ∈ rest
  · obtain ⟨front, more, rfl, hf⟩ := List.eq_append_cons_of_mem hr
    have hb : '<' ∉ (mode.escape text).toList ++ front := by
      simp only [List.mem_append, hl, hf, or_self, not_false_eq_true]
    rw [← List.append_assoc]
    by_cases hc : '>' ∈ more
    · obtain ⟨inside, after, rfl, hi⟩ := List.eq_append_cons_of_mem hc
      rw [scan_of_tag after hb hi, scan_of_tag after hf hi, unescaped_escape_append hm]
      cases readTag inside with
      | none => rfl
      | some marks => simp [Option.map_map, Function.comp_def, Outline.addText_addText]
    · rw [scan_of_unclosed hb hc, scan_of_unclosed hf hc]
      rfl
  · have hb : '<' ∉ (mode.escape text).toList ++ rest := by
      simp only [List.mem_append, hl, hr, or_self, not_false_eq_true]
    rw [scan_of_no_tag hb, scan_of_no_tag hr, unescaped_escape_append hm]
    rfl

end Markup
