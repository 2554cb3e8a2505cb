import Mathlib.Data.List.Basic
import Markup.Proofs.Text.Spans
import Markup.Text.Quoted

set_option autoImplicit false

/-!
# Quoted texts

A quoted text ends at the first quote that is not escaped, and no two texts are quoted alike. So
whatever stands behind it, a quoted text can be told from every other one.
-/

namespace Markup.Text

/-! ## Code points -/

theorem exists_digit_of_mem_toDigits (n : ℕ) :
    ∀ c ∈ Nat.toDigits 16 n, ∃ d < 16, c = Nat.digitChar d := by
  induction n using Nat.strongRecOn with
  | ind n ih =>
    intro c hc
    rw [Nat.toDigits_eq_if (by decide)] at hc
    split at hc
    · next hn => exact ⟨n, hn, List.mem_singleton.mp hc⟩
    · next hn =>
      rcases List.mem_append.mp hc with hc | hc
      · exact ih (n / 16) (by omega) c hc
      · exact ⟨n % 16, by omega, List.mem_singleton.mp hc⟩

theorem toDigits_injective : Function.Injective (Nat.toDigits 16) := by
  have hd : ∀ i < 16, ∀ j < 16, Nat.digitChar i = Nat.digitChar j → i = j := by decide
  have hp (i : ℕ) : 0 < (Nat.toDigits 16 i).length := Nat.length_toDigits_pos
  intro m
  induction m using Nat.strongRecOn with
  | ind m ih =>
    intro n h
    rw [Nat.toDigits_eq_if (by decide), Nat.toDigits_eq_if (b := 16) (n := n) (by decide)] at h
    split at h <;> split at h
    · next hm hn => exact hd m hm n hn (List.singleton_inj.mp h)
    · have hl := congrArg List.length h
      have hn := hp (n / 16)
      simp only [List.length_append, List.length_singleton] at hl
      omega
    · have hl := congrArg List.length h
      have hm := hp (m / 16)
      simp only [List.length_append, List.length_singleton] at hl
      omega
    · obtain ⟨hf, hl⟩ := List.append_inj' h rfl
      have hq := ih (m / 16) (by omega) hf
      have hr := hd _ (Nat.mod_lt m (by decide)) _ (Nat.mod_lt n (by decide))
        (List.singleton_inj.mp hl)
      omega

theorem codePointEscape_append_inj {c d : Char} {rest more : List Char}
    (h : codePointEscape c ++ rest = codePointEscape d ++ more) : c = d ∧ rest = more := by
  have hn (n : ℕ) : '\x7d' ∉ Nat.toDigits 16 n := by
    intro hm
    obtain ⟨i, hi, he⟩ := exists_digit_of_mem_toDigits n _ hm
    have hc : ∀ i < 16, '\x7d' ≠ Nat.digitChar i := by decide
    exact hc i hi he
  simp only [codePointEscape, List.cons_append, List.append_assoc, List.cons.injEq, true_and,
    List.nil_append] at h
  obtain ⟨hd, hr⟩ := append_inj_of_not_mem (hn _) (by simp) (hn _) (by simp) h
  exact ⟨Char.toNat_inj.mp (toDigits_injective hd), (List.cons.inj hr).2⟩

/-! ## Characters -/

def letterEscapes : List (Char × Char) :=
  [('"', '"'), ('\\', '\\'), ('\x00', '0'), ('\t', 't'), ('\n', 'n'), ('\r', 'r')]

theorem quotedChar_cases (c : Char) : (c ≠ '"' ∧ c ≠ '\\' ∧ quotedChar c = [c]) ∨
    (∃ letter, (c, letter) ∈ letterEscapes ∧ quotedChar c = ['\\', letter]) ∨
    quotedChar c = codePointEscape c := by
  unfold quotedChar letterEscapes
  grind

theorem letterEscapes_inj : ∀ first ∈ letterEscapes, ∀ second ∈ letterEscapes,
    first.2 = second.2 → first.1 = second.1 := by
  decide

theorem codePointEscape_ne_letter {c d letter : Char} (hd : (d, letter) ∈ letterEscapes)
    (rest more : List Char) : codePointEscape c ++ rest ≠ '\\' :: letter :: more := by
  intro h
  have hu : ∀ pair ∈ letterEscapes, 'u' ≠ pair.2 := by decide
  exact hu _ hd (List.cons.inj (List.cons.inj h).2).1

theorem quotedChar_append_inj {c d : Char} {rest more : List Char}
    (h : quotedChar c ++ rest = quotedChar d ++ more) : c = d ∧ rest = more := by
  rcases quotedChar_cases c with ⟨-, hb, hc⟩ | ⟨l, hl, hc⟩ | hc <;>
    rcases quotedChar_cases d with ⟨-, hb', hd⟩ | ⟨l', hl', hd⟩ | hd <;> rw [hc, hd] at h
  · exact List.cons.inj h
  · exact absurd (List.cons.inj h).1 hb
  · exact absurd (List.cons.inj h).1 hb
  · exact absurd (List.cons.inj h).1.symm hb'
  · obtain ⟨he, hr⟩ := List.cons.inj (List.cons.inj h).2
    exact ⟨letterEscapes_inj _ hl _ hl' he, hr⟩
  · exact absurd h.symm (codePointEscape_ne_letter hl _ _)
  · exact absurd (List.cons.inj h).1.symm hb'
  · exact absurd h (codePointEscape_ne_letter hl' _ _)
  · exact codePointEscape_append_inj h

theorem quotedChar_append_ne_quote (c : Char) (rest more : List Char) :
    quotedChar c ++ rest ≠ '"' :: more := by
  intro h
  rcases quotedChar_cases c with ⟨hq, -, hc⟩ | ⟨l, -, hc⟩ | hc <;> rw [hc] at h
  · exact hq (List.cons.inj h).1
  · exact absurd (List.cons.inj h).1 (by decide)
  · exact absurd (List.cons.inj h).1 (by decide)

/-! ## Texts -/

theorem quotedChars_append_inj {as bs rest more : List Char}
    (h : as.flatMap quotedChar ++ '"' :: rest = bs.flatMap quotedChar ++ '"' :: more) :
    as = bs ∧ rest = more := by
  induction as generalizing bs with
  | nil =>
    cases bs with
    | nil => exact ⟨rfl, (List.cons.inj h).2⟩
    | cons b bs =>
      rw [List.flatMap_cons, List.append_assoc] at h
      exact absurd h.symm (quotedChar_append_ne_quote b _ _)
  | cons a as ih =>
    rw [List.flatMap_cons, List.append_assoc] at h
    cases bs with
    | nil => exact absurd h (quotedChar_append_ne_quote a _ _)
    | cons b bs =>
      rw [List.flatMap_cons, List.append_assoc] at h
      obtain ⟨rfl, hr⟩ := quotedChar_append_inj h
      obtain ⟨rfl, he⟩ := ih hr
      exact ⟨rfl, he⟩

/-- A quoted text tells which text it is and where it ends. -/
theorem quoted_append_inj {a b : String} {rest more : List Char}
    (h : (quoted a).toList ++ rest = (quoted b).toList ++ more) : a = b ∧ rest = more := by
  simp only [quoted, String.toList_ofList, List.cons_append, List.append_assoc, List.cons.injEq,
    true_and, List.nil_append] at h
  obtain ⟨ht, hr⟩ := quotedChars_append_inj h
  exact ⟨String.toList_inj.mp ht, hr⟩

end Markup.Text
