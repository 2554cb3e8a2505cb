import Markup.Proofs.Text.Spans
import Markup.Uri.Basic

set_option autoImplicit false

/-!
# Splitting at a mark

`Uri.splitAt?` cuts a text around the first occurrence of a mark. The part in front is the one
without the mark; the two parts with the mark between them are the text again.
-/

namespace Markup.Uri

theorem splitAt?_append_cons {mark : Char} {before : List Char} (after : List Char)
    (h : mark ∉ before) : splitAt? mark (before ++ mark :: after) = some (before, after) := by
  have clear := Text.bne_of_not_mem h
  simp [splitAt?, List.takeWhile_append_of_pos clear, List.dropWhile_append_of_pos clear]

theorem splitAt?_eq_none {mark : Char} {text : List Char} (h : mark ∉ text) :
    splitAt? mark text = none := by
  rw [splitAt?, List.dropWhile_eq_nil_iff.mpr (Text.bne_of_not_mem h)]

theorem splitAt?_eq_some_iff {mark : Char} {text before after : List Char} :
    splitAt? mark text = some (before, after) ↔
      text = before ++ mark :: after ∧ mark ∉ before := by
  constructor
  · intro h
    by_cases hm : mark ∈ text
    · obtain ⟨front, back, htext, hf⟩ := List.eq_append_cons_of_mem hm
      rw [htext, splitAt?_append_cons back hf, Option.some.injEq, Prod.mk.injEq] at h
      rw [← h.1, ← h.2]
      exact ⟨htext, hf⟩
    · rw [splitAt?_eq_none hm] at h
      cases h
  · rintro ⟨rfl, hb⟩
    exact splitAt?_append_cons after hb

theorem splitAt_append_cons {mark : Char} {before : List Char} (after : List Char)
    (h : mark ∉ before) : splitAt mark (before ++ mark :: after) = (before, after) := by
  rw [splitAt, splitAt?_append_cons after h, Option.getD_some]

theorem splitAt_eq_self {mark : Char} {text : List Char} (h : mark ∉ text) :
    splitAt mark text = (text, []) := by
  rw [splitAt, splitAt?_eq_none h, Option.getD_none]

/-- What `Uri.splitAt` puts behind a mark, and nothing where there is nothing to put. -/
def marked (mark : Char) (after : List Char) : List Char :=
  if after = [] then [] else mark :: after

theorem splitAt_append_marked {mark : Char} {before : List Char} (after : List Char)
    (h : mark ∉ before) : splitAt mark (before ++ marked mark after) = (before, after) := by
  by_cases ha : after = []
  · subst ha
    simp [marked, splitAt_eq_self h]
  · simp [marked, ha, splitAt_append_cons after h]

theorem splitAt_parts (mark : Char) (text : List Char) :
    mark ∉ (splitAt mark text).1 ∧
      ((text = (splitAt mark text).1 ∧ (splitAt mark text).2 = []) ∨
        text = (splitAt mark text).1 ++ mark :: (splitAt mark text).2) := by
  by_cases hm : mark ∈ text
  · obtain ⟨before, after, rfl, hb⟩ := List.eq_append_cons_of_mem hm
    rw [splitAt_append_cons after hb]
    exact ⟨hb, .inr rfl⟩
  · rw [splitAt_eq_self hm]
    exact ⟨hm, .inl ⟨rfl, rfl⟩⟩

end Markup.Uri
