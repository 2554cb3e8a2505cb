import Mathlib.Data.Prod.Lex
import Markup.Proofs.Text.Spans
import Markup.Render.Tag

set_option autoImplicit false

/-!
# The grammar of tags

A tag is read by the grammar `name(#id)?(.classes)?` from the front of a text. There can be many
such readings, since every part may stop early; the one that counts is greedy, so the name is as
long as possible, then the identifier, then the classes.
-/

namespace Markup.Tag

/-! ## Readings -/

def isFree (stops : List Char) (c : Char) : Bool := !Text.isBlank c && !stops.contains c

structure IsRun (stops run : List Char) : Prop where
  ne_nil : run ≠ []
  free : ∀ c ∈ run, isFree stops c = true

instance (stops run : List Char) : Decidable (IsRun stops run) :=
  decidable_of_iff (run ≠ [] ∧ run.all (isFree stops) = true)
    ⟨fun h => ⟨h.1, List.all_eq_true.mp h.2⟩, fun h => ⟨h.ne_nil, List.all_eq_true.mpr h.free⟩⟩

structure Reading where
  name : List Char
  id? : Option (List Char)
  classes? : Option (List Char)

def marked (mark : Char) : Option (List Char) → List Char
  | some run => mark :: run
  | none => []

namespace Reading

/-- A reading of the front of a text, with more text behind it. -/
structure Before (reading : Reading) (rest text : List Char) : Prop where
  text_eq : reading.name ++ (marked '#' reading.id? ++ (marked '.' reading.classes? ++ rest)) = text
  name : IsRun ['.', '#'] reading.name
  id : ∀ run ∈ reading.id?, IsRun ['.', '#'] run
  classes : ∀ run ∈ reading.classes?, IsRun ['#'] run

def Fits (reading : Reading) (text : List Char) : Prop := ∃ rest, reading.Before rest text

/-- The lengths of the parts, those in front first. A part that is missing has none. -/
def lengths (reading : Reading) : ℕ ×ₗ ℕ ×ₗ ℕ :=
  toLex (reading.name.length,
    toLex ((reading.id?.getD []).length, (reading.classes?.getD []).length))

/-- A reading that takes all it can get for each part in turn. -/
structure Greedy (reading : Reading) (text : List Char) : Prop where
  fits : reading.Fits text
  longest : ∀ other : Reading, other.Fits text → other.lengths ≤ reading.lengths

def tag (reading : Reading) : Tag :=
  ⟨String.ofList reading.name, reading.id?.map String.ofList,
    String.ofList ((reading.classes?.getD []).map fun c => if c = '.' then ' ' else c)⟩

end Reading

/-! ## The longest run -/

theorem isNameChar_eq : isNameChar = isFree ['.', '#'] := by
  funext c
  simp only [isNameChar, isFree, List.contains_cons, List.contains_nil, Bool.or_false, Bool.not_or,
    Bool.and_assoc]

theorem isClassChar_eq : isClassChar = isFree ['#'] := by
  funext c
  simp only [isClassChar, isFree, List.contains_cons, List.contains_nil, Bool.or_false, Bool.not_or]

section Runs

variable {mark : Char} {stops run text : List Char} {part? : Option (List Char)}

theorem run_longest (h : ∀ c ∈ run, isFree stops c = true) (rest : List Char) :
    (run = (run ++ rest).takeWhile (isFree stops) ∧
        rest = (run ++ rest).dropWhile (isFree stops)) ∨
      run.length < ((run ++ rest).takeWhile (isFree stops)).length := by
  rw [List.takeWhile_append_of_pos h, List.dropWhile_append_of_pos h]
  cases ht : rest.takeWhile (isFree stops) with
  | nil =>
    have hd := List.takeWhile_append_dropWhile (p := isFree stops) (l := rest)
    rw [ht, List.nil_append] at hd
    exact .inl ⟨(List.append_nil run).symm, hd.symm⟩
  | cons c cs =>
    right
    simp

theorem isRun_takeWhile (h : text.takeWhile (isFree stops) ≠ []) :
    IsRun stops (text.takeWhile (isFree stops)) :=
  ⟨h, fun _ hc => List.mem_takeWhile_imp hc⟩

/-! ## Optional parts -/

/-- The part behind a mark in front of a text, if there is a run for it, and the text behind the
    part. -/
def readPart (mark : Char) (stops : List Char) : List Char → Option (List Char) × List Char
  | [] => (none, [])
  | c :: after =>
    if c = mark ∧ after.takeWhile (isFree stops) ≠ [] then
      (some (after.takeWhile (isFree stops)), after.dropWhile (isFree stops))
    else (none, c :: after)

theorem readPart_of_unmarked (h : mark ∉ text.head?) : readPart mark stops text = (none, text) := by
  cases text with
  | nil => rfl
  | cons c after =>
    have hc : c ≠ mark := fun he => h (he ▸ rfl)
    rw [readPart, if_neg fun h => hc h.1]

theorem splitId_eq (text : List Char) : splitId text = readPart '#' ['.', '#'] text := by
  unfold splitId
  split
  · next after =>
    simp only [isNameChar_eq, readPart, List.isEmpty_iff, true_and, ne_eq, ite_not]
  · next hn =>
    refine (readPart_of_unmarked fun h => ?_).symm
    obtain ⟨after, rfl⟩ := List.head?_eq_some_iff.mp h
    exact hn after rfl

theorem leadingClasses_eq (text : List Char) : leadingClasses text =
    ((readPart '.' ['#'] text).1.getD []).map fun c => if c = '.' then ' ' else c := by
  unfold leadingClasses
  split
  · next after =>
    rw [isClassChar_eq]
    by_cases h : after.takeWhile (isFree ['#']) = [] <;> simp [readPart, h]
  · next hn =>
    have hm : '.' ∉ text.head? := by
      intro h
      obtain ⟨after, rfl⟩ := List.head?_eq_some_iff.mp h
      exact hn after rfl
    rw [readPart_of_unmarked hm]
    rfl

theorem readPart_spec (mark : Char) (stops text : List Char) :
    marked mark (readPart mark stops text).1 ++ (readPart mark stops text).2 = text ∧
      ∀ run ∈ (readPart mark stops text).1, IsRun stops run := by
  cases text with
  | nil => exact ⟨rfl, fun _ hr => absurd hr (Option.not_mem_none _)⟩
  | cons c after =>
    rw [readPart]
    split
    · next h =>
      refine ⟨?_, fun run hr => ?_⟩
      · simp [marked, h.1]
      · rw [← Option.some.inj hr]
        exact isRun_takeWhile h.2
    · exact ⟨rfl, fun _ hr => absurd hr (Option.not_mem_none _)⟩

theorem readPart_marked (h : IsRun stops run) (rest : List Char) :
    readPart mark stops (mark :: (run ++ rest)) =
      (some ((run ++ rest).takeWhile (isFree stops)), (run ++ rest).dropWhile (isFree stops)) := by
  have hn : (run ++ rest).takeWhile (isFree stops) ≠ [] := by
    rw [List.takeWhile_append_of_pos h.free]
    exact List.append_ne_nil_of_left_ne_nil h.ne_nil _
  rw [readPart, if_pos ⟨rfl, hn⟩]

theorem part_longest (h : ∀ run ∈ part?, IsRun stops run) (rest : List Char) :
    readPart mark stops (marked mark part? ++ rest) = (part?, rest) ∨
      (part?.getD []).length <
        ((readPart mark stops (marked mark part? ++ rest)).1.getD []).length := by
  cases part? with
  | none =>
    obtain ⟨ht, hr⟩ := readPart_spec mark stops rest
    change readPart mark stops rest = _ ∨ _ < ((readPart mark stops rest).1.getD []).length
    cases hp : (readPart mark stops rest).1 with
    | none =>
      rw [hp] at ht
      exact .inl (Prod.ext hp ht)
    | some run => exact .inr (List.length_pos_iff.mpr (hr run hp).ne_nil)
  | some run =>
    have hr := h run rfl
    change readPart mark stops (mark :: (run ++ rest)) = _ ∨
      _ < ((readPart mark stops (mark :: (run ++ rest))).1.getD []).length
    rw [readPart_marked hr]
    rcases run_longest hr.free rest with ⟨ht, hd⟩ | hl
    · exact .inl (by rw [← ht, ← hd])
    · exact .inr hl

end Runs

/-! ## The greedy reading -/

/-- The reading of a text that takes the longest run for each part. -/
def readingOf (text : List Char) : Reading :=
  let name := text.takeWhile (isFree ['.', '#'])
  let (id?, rest) := readPart '#' ['.', '#'] (text.dropWhile (isFree ['.', '#']))
  ⟨name, id?, (readPart '.' ['#'] rest).1⟩

theorem parse?_eq (text : String) : parse? text =
    if (readingOf text.toList).name.isEmpty then none else some (readingOf text.toList).tag := by
  simp only [parse?, readingOf, Reading.tag, isNameChar_eq, splitId_eq, leadingClasses_eq]
  rfl

theorem lengths_lt_iff {a b : Reading} : a.lengths < b.lengths ↔
    a.name.length < b.name.length ∨ a.name.length = b.name.length ∧
      ((a.id?.getD []).length < (b.id?.getD []).length ∨
        (a.id?.getD []).length = (b.id?.getD []).length ∧
          (a.classes?.getD []).length < (b.classes?.getD []).length) := by
  simp only [Reading.lengths, Prod.Lex.toLex_lt_toLex]

section Greedy

variable {text : List Char} {reading : Reading}

theorem fits_readingOf (h : (readingOf text).name ≠ []) : (readingOf text).Fits text := by
  let after := text.dropWhile (isFree ['.', '#'])
  let more := (readPart '#' ['.', '#'] after).2
  obtain ⟨hi, hir⟩ := readPart_spec '#' ['.', '#'] after
  obtain ⟨hc, hcr⟩ := readPart_spec '.' ['#'] more
  refine ⟨(readPart '.' ['#'] more).2, ?_, isRun_takeWhile h, hir, hcr⟩
  calc
    text.takeWhile (isFree ['.', '#']) ++ (marked '#' (readPart '#' ['.', '#'] after).1 ++
          (marked '.' (readPart '.' ['#'] more).1 ++ (readPart '.' ['#'] more).2)) =
        text.takeWhile (isFree ['.', '#']) ++ after := by rw [hc, hi]
    _ = text := List.takeWhile_append_dropWhile

theorem eq_readingOf_or_lt (h : reading.Fits text) :
    reading = readingOf text ∨ reading.lengths < (readingOf text).lengths := by
  obtain ⟨rest, ht, hn, hi, hc⟩ := h
  have hr : readingOf text = ⟨text.takeWhile (isFree ['.', '#']),
      (readPart '#' ['.', '#'] (text.dropWhile (isFree ['.', '#']))).1,
      (readPart '.' ['#']
        (readPart '#' ['.', '#'] (text.dropWhile (isFree ['.', '#']))).2).1⟩ := rfl
  rw [lengths_lt_iff, hr]
  -- the first part that is not the longest one decides; up to it both leave the same text
  rcases run_longest hn.free (marked '#' reading.id? ++ (marked '.' reading.classes? ++ rest)) with
    ⟨htake, hdrop⟩ | hl
  · rw [ht] at htake hdrop
    rw [← htake, ← hdrop]
    rcases part_longest hi (marked '.' reading.classes? ++ rest) with hp | hl
    · rw [hp]
      rcases part_longest hc rest with hq | hl
      · rw [hq]
        exact .inl rfl
      · exact .inr (.inr ⟨rfl, .inr ⟨rfl, hl⟩⟩)
    · exact .inr (.inr ⟨rfl, .inl hl⟩)
  · rw [ht] at hl
    exact .inr (.inl hl)

theorem name_ne_nil_of_fits (h : reading.Fits text) : (readingOf text).name ≠ [] := by
  obtain ⟨rest, rfl, hn, -, -⟩ := h
  change List.takeWhile _ _ ≠ []
  rw [List.takeWhile_append_of_pos hn.free]
  exact List.append_ne_nil_of_left_ne_nil hn.ne_nil _

theorem greedy_iff :
    reading.Greedy text ↔ (readingOf text).name ≠ [] ∧ reading = readingOf text := by
  constructor
  · rintro ⟨hf, hl⟩
    have hn := name_ne_nil_of_fits hf
    refine ⟨hn, (eq_readingOf_or_lt hf).resolve_right fun hlt => ?_⟩
    exact absurd (hl _ (fits_readingOf hn)) (not_le_of_gt hlt)
  · rintro ⟨hn, rfl⟩
    refine ⟨fits_readingOf hn, fun other hf => ?_⟩
    rcases eq_readingOf_or_lt hf with rfl | hlt
    · exact le_rfl
    · exact hlt.le

end Greedy

theorem parse?_eq_some_iff {text : String} {tag : Tag} : parse? text = some tag ↔
    ∃ reading : Reading, reading.Greedy text.toList ∧ tag = reading.tag := by
  rw [parse?_eq]
  split
  · next h =>
    refine iff_of_false nofun ?_
    rintro ⟨reading, hg, -⟩
    exact (greedy_iff.mp hg).1 (List.isEmpty_iff.mp h)
  · next h =>
    rw [Option.some.injEq]
    constructor
    · rintro rfl
      exact ⟨_, greedy_iff.mpr ⟨mt List.isEmpty_iff.mpr h, rfl⟩, rfl⟩
    · rintro ⟨reading, hg, rfl⟩
      rw [(greedy_iff.mp hg).2]

theorem parse?_eq_none_iff {text : String} :
    parse? text = none ↔ ∀ name, name <+: text.toList → ¬ IsRun ['.', '#'] name := by
  rw [parse?_eq]
  split
  · next h =>
    refine iff_of_true rfl ?_
    rintro name ⟨rest, ht⟩ hn
    have hf : (⟨name, none, none⟩ : Reading).Fits text.toList := ⟨rest, ht, hn, nofun, nofun⟩
    exact name_ne_nil_of_fits hf (List.isEmpty_iff.mp h)
  · next h =>
    refine iff_of_false nofun fun hn => ?_
    exact hn _ (List.takeWhile_prefix _) (isRun_takeWhile (mt List.isEmpty_iff.mpr h))

/-! ## Written tags -/

/-- A tag as it is written: the name, the identifier behind a hash and each class behind a dot. -/
def written (name : String) (id? : Option String) (classes : List String) : String :=
  name ++ (match id? with | some id => "#" ++ id | none => "") ++
    String.join (classes.map ("." ++ ·))

def classRun? : List String → Option (List Char)
  | [] => none
  | first :: rest => some (first ++ String.join (rest.map ("." ++ ·))).toList

theorem toList_written (name : String) (id? : Option String) (classes : List String) :
    (written name id? classes).toList =
      name.toList ++ (marked '#' (id?.map String.toList) ++ marked '.' (classRun? classes)) := by
  unfold written
  cases id? <;> cases classes <;> simp [marked, classRun?]

section Classes

variable {classes : List String} (h : ∀ entry ∈ classes, IsRun ['.', '#'] entry.toList)
include h

theorem map_classRun? : ((classRun? classes).getD []).map (fun c => if c = '.' then ' ' else c) =
    (" ".intercalate classes).toList := by
  have kept : ∀ entry ∈ classes,
      entry.toList.map (fun c => if c = '.' then ' ' else c) = entry.toList := by
    intro entry he
    refine (List.map_congr_left fun c hc => ?_).trans (List.map_id _)
    have hf := (h entry he).free c hc
    have hd : c ≠ '.' := by
      rintro rfl
      exact absurd hf (by decide)
    exact if_neg hd
  cases classes with
  | nil => rfl
  | cons first rest =>
    rw [Text.intercalate_cons_eq]
    simp only [classRun?, Option.getD_some, String.toList_append, List.map_append,
      kept first List.mem_cons_self, String.toList_join, List.flatMap_map, List.map_flatMap]
    rw [List.flatMap_def, List.flatMap_def]
    refine congrArg (first.toList ++ List.flatten ·) (List.map_congr_left fun entry he => ?_)
    rw [kept entry (List.mem_cons_of_mem first he)]
    rfl

theorem isRun_classRun? : ∀ run ∈ classRun? classes, IsRun ['#'] run := by
  have free : ∀ entry ∈ classes, ∀ c ∈ entry.toList, isFree ['#'] c = true := by
    intro entry he c hc
    have hf := (h entry he).free c hc
    simp only [isFree, List.contains_cons, Bool.not_or, Bool.and_eq_true] at hf ⊢
    exact ⟨hf.1, hf.2.2⟩
  intro run hr
  cases classes with
  | nil => cases hr
  | cons first rest =>
    rw [← Option.some.inj hr, String.toList_append]
    refine ⟨List.append_ne_nil_of_left_ne_nil (h first List.mem_cons_self).ne_nil _, ?_⟩
    intro c hc
    rw [List.mem_append, String.toList_join, List.flatMap_map, List.mem_flatMap] at hc
    rcases hc with hc | ⟨entry, he, hc⟩
    · exact free first List.mem_cons_self c hc
    · rw [String.toList_append, List.mem_append] at hc
      rcases hc with hc | hc
      · rw [List.mem_singleton.mp hc]
        decide
      · exact free entry (List.mem_cons_of_mem first he) c hc

end Classes

theorem readPart_of_stop {mark : Char} {stops rest : List Char} {part? : Option (List Char)}
    (h : ∀ run ∈ part?, IsRun stops run) (hs : ∀ c ∈ rest.head?, isFree stops c = false)
    (hm : mark ∉ rest.head?) : readPart mark stops (marked mark part? ++ rest) = (part?, rest) := by
  cases part? with
  | none => exact readPart_of_unmarked hm
  | some run =>
    have hr := h run rfl
    change readPart mark stops (mark :: (run ++ rest)) = _
    rw [readPart_marked hr, Text.takeWhile_append_of_stop hr.free hs,
      Text.dropWhile_append_of_stop hr.free hs]

theorem eq_of_mem_head_marked {mark c : Char} {part? : Option (List Char)}
    (h : c ∈ (marked mark part?).head?) : c = mark := by
  cases part? with
  | none => cases h
  | some run => exact (Option.some.inj h).symm

section Written

variable {name : String} {id? : Option String} {classes : List String}
  (hn : IsRun ['.', '#'] name.toList) (hi : ∀ id ∈ id?, IsRun ['.', '#'] id.toList)
  (hc : ∀ entry ∈ classes, IsRun ['.', '#'] entry.toList)
include hn hi hc

theorem readingOf_written : readingOf (written name id? classes).toList =
    ⟨name.toList, id?.map String.toList, classRun? classes⟩ := by
  have behind_name : ∀ c ∈ (marked '#' (id?.map String.toList) ++
      marked '.' (classRun? classes)).head?, isFree ['.', '#'] c = false := by
    intro c hm
    rw [List.head?_append, Option.mem_def, Option.or_eq_some_iff] at hm
    rcases hm with hm | ⟨-, hm⟩ <;> rw [eq_of_mem_head_marked hm] <;> decide
  have hid : readPart '#' ['.', '#'] (marked '#' (id?.map String.toList) ++
      marked '.' (classRun? classes)) =
      (id?.map String.toList, marked '.' (classRun? classes)) := by
    refine readPart_of_stop (fun run hr => ?_) (fun c hm => ?_) fun hm => ?_
    · obtain ⟨id, hm, rfl⟩ := Option.map_eq_some_iff.mp hr
      exact hi id hm
    · rw [eq_of_mem_head_marked hm]
      decide
    · exact absurd (eq_of_mem_head_marked hm) (by decide)
  have hclasses : readPart '.' ['#'] (marked '.' (classRun? classes) ++ []) =
      (classRun? classes, []) := readPart_of_stop (isRun_classRun? hc) nofun nofun
  rw [List.append_nil] at hclasses
  simp only [toList_written, readingOf, Text.takeWhile_append_of_stop hn.free behind_name,
    Text.dropWhile_append_of_stop hn.free behind_name, hid, hclasses]

theorem parse?_written :
    parse? (written name id? classes) = some ⟨name, id?, " ".intercalate classes⟩ := by
  have hname : ¬ name.toList.isEmpty = true := mt List.isEmpty_iff.mp hn.ne_nil
  have hid : (id?.map String.toList).map String.ofList = id? := by
    cases id? <;> simp
  rw [parse?_eq, readingOf_written hn hi hc, if_neg hname, Reading.tag, map_classRun? hc,
    String.ofList_toList, String.ofList_toList, hid]

end Written

/-- Tags are read by their grammar: what is read is the greedy reading of the text, nothing is read
    exactly if there is no name, and every written tag is read back. -/
theorem parse_greedy :
    (∀ text tag, parse? text = some tag ↔
      ∃ reading : Reading, reading.Greedy text.toList ∧ tag = reading.tag) ∧
    (∀ text, parse? text = none ↔ ∀ name, name <+: text.toList → ¬ IsRun ['.', '#'] name) ∧
    (∀ name id? classes, IsRun ['.', '#'] name.toList →
      (∀ id ∈ id?, IsRun ['.', '#'] id.toList) →
      (∀ entry ∈ classes, IsRun ['.', '#'] entry.toList) →
      parse? (written name id? classes) = some ⟨name, id?, " ".intercalate classes⟩) :=
  ⟨fun _ _ => parse?_eq_some_iff, fun _ => parse?_eq_none_iff,
    fun _ _ _ hn hi hc => parse?_written hn hi hc⟩

theorem parse_greedy_section :
    IsRun ['.', '#'] "section".toList ∧ (∀ id ∈ some "top", IsRun ['.', '#'] id.toList) ∧
      (∀ entry ∈ ["wide", "café"], IsRun ['.', '#'] entry.toList) ∧
      parse? "section#top.wide.café" = some ⟨"section", some "top", "wide café"⟩ := by
  have hn : IsRun ['.', '#'] "section".toList := by decide
  have hi : ∀ id ∈ some "top", IsRun ['.', '#'] id.toList := by
    rintro id ⟨⟩
    decide
  have hc : ∀ entry ∈ ["wide", "café"], IsRun ['.', '#'] entry.toList := by
    intro entry he
    simp only [List.mem_cons, List.not_mem_nil, or_false] at he
    rcases he with rfl | rfl <;> decide
  have hw : written "section" (some "top") ["wide", "café"] = "section#top.wide.café" := by decide
  have hj : " ".intercalate ["wide", "café"] = "wide café" := by decide
  have hp := parse_greedy.2.2 "section" (some "top") ["wide", "café"] hn hi hc
  rw [hw, hj] at hp
  exact ⟨hn, hi, hc, hp⟩

/-- An identifier that is missing behind its hash keeps the classes from being read. -/
example : parse? "div#.a" = some ⟨"div", none, ""⟩ := by decide

end Markup.Tag
