import Mathlib.Data.List.TakeWhile

set_option autoImplicit false

/-!
# Spans

A text that is read while a test holds, and stops where it fails or where the text ends. Joined
texts are the first one and what stands behind it.
-/

namespace Markup.Text

variable {test : Char → Bool} {front rest : List Char}

theorem takeWhile_append_of_stop (hf : ∀ c ∈ front, test c = true)
    (hr : ∀ c ∈ rest.head?, test c = false) : (front ++ rest).takeWhile test = front := by
  rw [List.takeWhile_append_of_pos hf]
  cases rest with
  | nil => simp
  | cons c cs => simp [hr c rfl]

theorem dropWhile_append_of_stop (hf : ∀ c ∈ front, test c = true)
    (hr : ∀ c ∈ rest.head?, test c = false) : (front ++ rest).dropWhile test = rest := by
  rw [List.dropWhile_append_of_pos hf]
  cases rest with
  | nil => rfl
  | cons c cs => simp [hr c rfl]

/-- Where both first parts of two texts end at the same test, equal texts have equal parts. -/
theorem append_inj_of_stop {front' rest' : List Char} (hf : ∀ c ∈ front, test c = true)
    (hr : ∀ c ∈ rest.head?, test c = false) (hf' : ∀ c ∈ front', test c = true)
    (hr' : ∀ c ∈ rest'.head?, test c = false) (h : front ++ rest = front' ++ rest') :
    front = front' ∧ rest = rest' := by
  have ht := takeWhile_append_of_stop hf hr
  have hd := dropWhile_append_of_stop hf hr
  rw [h, takeWhile_append_of_stop hf' hr'] at ht
  rw [h, dropWhile_append_of_stop hf' hr'] at hd
  exact ⟨ht.symm, hd.symm⟩

theorem bne_of_not_mem {c : Char} {text : List Char} (h : c ∉ text) :
    ∀ d ∈ text, (d != c) = true :=
  fun _ hd => bne_iff_ne.mpr fun he => h (he ▸ hd)

theorem append_inj_of_not_mem {c : Char} {front' rest' : List Char} (hf : c ∉ front)
    (hr : ∀ d ∈ rest.head?, d = c) (hf' : c ∉ front') (hr' : ∀ d ∈ rest'.head?, d = c)
    (h : front ++ rest = front' ++ rest') : front = front' ∧ rest = rest' := by
  have hs {text : List Char} (hc : ∀ d ∈ text.head?, d = c) : ∀ d ∈ text.head?, (d != c) = false :=
    fun d hd => bne_eq_false_iff_eq.mpr (hc d hd)
  exact append_inj_of_stop (bne_of_not_mem hf) (hs hr) (bne_of_not_mem hf') (hs hr') h

theorem takeWhile_append_cons_of_stop {c : Char} (h : test c = false) :
    (front ++ c :: rest).takeWhile test = front.takeWhile test := by
  induction front with
  | nil => simp [h]
  | cons first more ih => simp only [List.cons_append, List.takeWhile_cons, ih]

theorem dropWhile_append_cons_of_stop {c : Char} (h : test c = false) :
    (front ++ c :: rest).dropWhile test = front.dropWhile test ++ c :: rest := by
  induction front with
  | nil => simp [h]
  | cons first more ih =>
    simp only [List.cons_append, List.dropWhile_cons, ih]
    split <;> rfl

theorem test_head_dropWhile {text : List Char} {c : Char}
    (h : c ∈ (text.dropWhile test).head?) : test c = false := by
  have hd := List.head?_dropWhile_not test text
  rw [Option.mem_def] at h
  rw [h] at hd
  exact hd

/-! ## Joined texts -/

theorem intercalate_cons_eq (sep first : String) (rest : List String) :
    sep.intercalate (first :: rest) = first ++ String.join (rest.map (sep ++ ·)) := by
  induction rest generalizing first with
  | nil => simp
  | cons second rest ih =>
    rw [String.intercalate_cons_cons, ih, List.map_cons, String.join_cons, String.append_assoc,
      String.append_assoc]

end Markup.Text
