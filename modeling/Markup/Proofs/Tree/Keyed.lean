import Mathlib.Data.List.Dedup
import Mathlib.Data.String.Basic

set_option autoImplicit false

/-!
# Pairs by key

Pairs with different keys have one ascending order. It is settled by which pairs there are, so
sorting them and looking up every key in order come to the same.
-/

namespace Markup

variable {α : Type}

def Ascending (pairs : List (String × α)) : Prop := pairs.Pairwise fun a b => a.1 < b.1

theorem Ascending.nodup {pairs : List (String × α)} (h : Ascending pairs) : pairs.Nodup := by
  apply List.Pairwise.imp _ h
  rintro a b hlt rfl
  exact lt_irrefl _ hlt

theorem eq_of_ascending {as bs : List (String × α)} (ha : Ascending as) (hb : Ascending bs)
    (h : ∀ pair, pair ∈ as ↔ pair ∈ bs) : as = bs := by
  -- without repetition, the same members make a permutation, and only one order is ascending
  have hp : as.Perm bs := (List.perm_ext_iff_of_nodup ha.nodup hb.nodup).mpr h
  refine hp.eq_of_pairwise ?_ ha hb
  intro a b _ _ hab hba
  exact absurd hba (lt_asymm hab)

theorem pairwise_lt_mergeSort {key : α → String} {items : List α}
    (h : items.Pairwise fun a b => key a ≠ key b) :
    (items.mergeSort fun a b => key a ≤ key b).Pairwise fun a b => key a < key b := by
  have ordered : (items.mergeSort fun a b => key a ≤ key b).Pairwise fun a b => key a ≤ key b := by
    have hs : (items.mergeSort fun a b => key a ≤ key b).Pairwise
        fun a b => decide (key a ≤ key b) = true := by
      apply List.pairwise_mergeSort
      · intro a b c hab hbc
        exact decide_eq_true ((of_decide_eq_true hab).trans (of_decide_eq_true hbc))
      · intro a b
        simpa using le_total (key a) (key b)
    exact hs.imp of_decide_eq_true
  have distinct : (items.mergeSort fun a b => key a ≤ key b).Pairwise fun a b => key a ≠ key b :=
    (List.mergeSort_perm items _).symm.pairwise h Ne.symm
  exact ordered.imp₂ (fun a b hle hne => lt_of_le_of_ne hle hne) distinct

theorem ascending_mergeSort {pairs : List (String × α)}
    (h : pairs.Pairwise fun a b => a.1 ≠ b.1) :
    Ascending (pairs.mergeSort fun a b => a.1 ≤ b.1) :=
  pairwise_lt_mergeSort h

def lookups (keys : List String) (value? : String → Option α) : List (String × α) :=
  keys.filterMap fun key => (value? key).map (key, ·)

theorem mem_lookups_iff {keys : List String} {value? : String → Option α} {key : String}
    {value : α} : (key, value) ∈ lookups keys value? ↔ key ∈ keys ∧ value? key = some value := by
  simp only [lookups, List.mem_filterMap, Option.map_eq_some_iff, Prod.mk.injEq]
  constructor
  · rintro ⟨_, hk, _, hv, rfl, rfl⟩
    exact ⟨hk, hv⟩
  · rintro ⟨hk, hv⟩
    exact ⟨key, hk, value, hv, rfl, rfl⟩

theorem ascending_lookups {keys : List String} (value? : String → Option α)
    (h : keys.Pairwise (· < ·)) : Ascending (lookups keys value?) := by
  apply h.filterMap
  intro a b hab x hx y hy
  obtain ⟨_, -, rfl⟩ := Option.map_eq_some_iff.mp hx
  obtain ⟨_, -, rfl⟩ := Option.map_eq_some_iff.mp hy
  exact hab

theorem map_lookups_congr {β : Type} {v? w? : String → Option α} {f : String → α → β}
    (h : ∀ key, (v? key).map (f key) = (w? key).map (f key)) (keys : List String) :
    (lookups keys v?).map (fun pair => f pair.1 pair.2) =
      (lookups keys w?).map fun pair => f pair.1 pair.2 := by
  unfold lookups
  rw [List.map_filterMap, List.map_filterMap]
  congr 1
  funext key
  rw [Option.map_map, Option.map_map]
  exact h key

def sortedKeys (keys : List String) : List String := keys.dedup.mergeSort (· ≤ ·)

theorem mem_sortedKeys_iff {keys : List String} {key : String} :
    key ∈ sortedKeys keys ↔ key ∈ keys := by
  rw [sortedKeys, List.mem_mergeSort, List.mem_dedup]

theorem pairwise_sortedKeys (keys : List String) : (sortedKeys keys).Pairwise (· < ·) := by
  have h : keys.dedup.Pairwise fun a b => id a ≠ id b := keys.nodup_dedup
  exact pairwise_lt_mergeSort h

end Markup
