import Mathlib.Data.List.Nodup
import Markup.Tree.Attrs

set_option autoImplicit false

/-!
# Lookups

A map of attributes is its keys in order and the value of each. The operations on maps are
described by what they do to these two; nothing else about a list of attributes matters.
-/

namespace Markup.Attrs

/-! ## Keys and values -/

theorem find?_cons_key (first : Attribute) (rest : List Attribute) (key : String) :
    ((first :: rest).find? (·.key == key)).map Attribute.value =
      if first.key = key then some first.value
      else (rest.find? (·.key == key)).map Attribute.value := by
  by_cases h : first.key = key
  · simp [h]
  · rw [if_neg h, List.find?_cons_of_neg (by simpa using h)]

theorem get?_eq_some_iff {map : Attrs} {key : String} {value : AttrValue} :
    map.get? key = some value ↔ ⟨key, value⟩ ∈ map.entries := by
  obtain ⟨entries, hd⟩ := map
  unfold Attrs.get?
  induction entries with
  | nil => simp
  | cons entry rest ih =>
    rw [List.map_cons, List.nodup_cons] at hd
    rw [find?_cons_key, List.mem_cons]
    obtain ⟨own, content⟩ := entry
    by_cases hk : own = key
    · subst hk
      have hn : ⟨own, value⟩ ∉ rest := fun hm => hd.1 (List.mem_map.mpr ⟨_, hm, rfl⟩)
      simp [hn, eq_comm]
    · have hne : key ≠ own := Ne.symm hk
      simpa [hk, hne] using ih hd.2

theorem get?_of_mem {map : Attrs} {entry : Attribute} (h : entry ∈ map.entries) :
    map.get? entry.key = some entry.value :=
  get?_eq_some_iff.mpr h

theorem mem_keys_iff {map : Attrs} {key : String} :
    key ∈ map.keys ↔ ∃ value, map.get? key = some value := by
  simp only [get?_eq_some_iff]
  constructor
  · intro h
    obtain ⟨entry, hm, rfl⟩ := List.mem_map.mp h
    exact ⟨entry.value, hm⟩
  · rintro ⟨value, hm⟩
    exact List.mem_map_of_mem hm

theorem contains_iff {map : Attrs} {key : String} : map.contains key = true ↔ key ∈ map.keys := by
  rw [contains, Option.isSome_iff_exists, mem_keys_iff]

theorem get?_eq_none_iff {map : Attrs} {key : String} : map.get? key = none ↔ key ∉ map.keys := by
  rw [mem_keys_iff, Option.eq_none_iff_forall_ne_some, not_exists]

theorem entries_eq (map : Attrs) :
    map.entries = map.keys.filterMap fun key => (map.get? key).map (⟨key, ·⟩) := by
  rw [keys, List.filterMap_map]
  symm
  rw [List.filterMap_congr (g := some), List.filterMap_some]
  intro entry h
  simp only [Function.comp_apply, get?_of_mem h, Option.map_some]

theorem ext_get? {a b : Attrs} (hk : a.keys = b.keys) (hg : ∀ key, a.get? key = b.get? key) :
    a = b := by
  apply Attrs.ext
  rw [entries_eq, entries_eq b, hk]
  simp only [hg]

/-- Maps with the same value for every key, in whatever order. -/
def SameValues (a b : Attrs) : Prop := ∀ key, a.get? key = b.get? key

theorem sameValues_of_perm {a b : Attrs} (h : a.entries.Perm b.entries) : a.SameValues b := by
  intro key
  apply Option.ext
  intro value
  rw [get?_eq_some_iff, get?_eq_some_iff, h.mem_iff]

@[simp] theorem keys_empty : empty.keys = [] := rfl

@[simp] theorem get?_empty (key : String) : empty.get? key = none := rfl

/-! ## Inserting -/

theorem find?_place (entry : Attribute) (entries : List Attribute) (key : String) :
    ((entry.place entries).find? (·.key == key)).map Attribute.value =
      if entry.key = key then some entry.value
      else (entries.find? (·.key == key)).map Attribute.value := by
  induction entries with
  | nil => exact find?_cons_key entry [] key
  | cons first rest ih =>
    unfold Attribute.place
    rw [find?_cons_key]
    split
    · next hf =>
      rw [find?_cons_key, hf]
      split <;> rfl
    · next hf =>
      rw [find?_cons_key, ih]
      by_cases h : first.key = key
      · have he : entry.key ≠ key := fun he => hf (h.trans he.symm)
        rw [if_pos h, if_neg he, if_pos h]
      · rw [if_neg h, if_neg h]

theorem get?_insert (map : Attrs) (entry : Attribute) (key : String) :
    (map.insert entry).get? key = if entry.key = key then some entry.value else map.get? key :=
  find?_place entry map.entries key

theorem keys_place (entry : Attribute) (entries : List Attribute) :
    (entry.place entries).map Attribute.key =
      if entry.key ∈ entries.map Attribute.key then entries.map Attribute.key
      else entries.map Attribute.key ++ [entry.key] := by
  induction entries with
  | nil => rfl
  | cons first rest ih =>
    unfold Attribute.place
    by_cases hf : first.key = entry.key
    · simp [hf]
    · have hne : entry.key ≠ first.key := Ne.symm hf
      rw [if_neg hf, List.map_cons, ih, List.map_cons]
      by_cases hm : entry.key ∈ rest.map Attribute.key <;>
        simp only [List.mem_cons, hne, hm] <;> rfl

theorem keys_insert (map : Attrs) (entry : Attribute) : (map.insert entry).keys =
    if map.contains entry.key then map.keys else map.keys ++ [entry.key] := by
  simp only [contains_iff]
  exact keys_place entry map.entries

/-! ## Removing -/

theorem extract_fst (key : String) (entries : List Attribute) : (Attribute.extract key entries).1 =
    (entries.find? (·.key == key)).map Attribute.value := by
  induction entries with
  | nil => rfl
  | cons first rest ih =>
    unfold Attribute.extract
    rw [find?_cons_key]
    split
    · rfl
    · exact ih

theorem remove_fst (map : Attrs) (key : String) : (map.remove key).1 = map.get? key :=
  extract_fst key map.entries

theorem extract_snd (key : String) {entries : List Attribute}
    (h : (entries.map Attribute.key).Nodup) :
    (Attribute.extract key entries).2 = entries.filter (·.key ≠ key) := by
  induction entries with
  | nil => rfl
  | cons first rest ih =>
    rw [List.map_cons, List.nodup_cons] at h
    unfold Attribute.extract
    by_cases hk : first.key = key
    · -- no other attribute has the key, so none is missed behind the first
      have hr : ∀ entry ∈ rest, entry.key ≠ key := by
        rintro entry hm rfl
        exact h.1 (hk ▸ List.mem_map_of_mem hm)
      rw [if_pos hk, List.filter_cons_of_neg (by simpa using hk), eq_comm, List.filter_eq_self]
      simpa using hr
    · rw [if_neg hk, List.filter_cons_of_pos (by simpa using hk)]
      exact congrArg (first :: ·) (ih h.2)

theorem keys_erase (map : Attrs) (key : String) :
    (map.erase key).keys = map.keys.filter (· ≠ key) := by
  change ((Attribute.extract key map.entries).2).map Attribute.key = _
  rw [extract_snd key map.distinct, keys, List.filter_map]
  rfl

theorem get?_erase (map : Attrs) (key other : String) :
    (map.erase key).get? other = if other = key then none else map.get? other := by
  have he : (map.erase key).entries = map.entries.filter (·.key ≠ key) :=
    extract_snd key map.distinct
  split
  · next h =>
    rw [get?_eq_none_iff, keys_erase, h]
    simp
  · next h =>
    apply Option.ext
    intro value
    simp only [get?_eq_some_iff, he, List.mem_filter, ne_eq, h, not_false_eq_true, decide_true,
      and_true]

/-! ## Updating -/

section InsertMany

variable (map : Attrs) {entries : List Attribute} (h : (entries.map Attribute.key).Nodup)
include h

theorem get?_insertMany (key : String) : (map.insertMany entries).get? key =
    ((entries.find? (·.key == key)).map Attribute.value).or (map.get? key) := by
  induction entries generalizing map with
  | nil => rfl
  | cons entry rest ih =>
    rw [List.map_cons, List.nodup_cons] at h
    have hi := ih (map.insert entry) h.2
    rw [insertMany, List.foldl_cons, ← insertMany, hi, get?_insert, find?_cons_key]
    split
    · next hk =>
      have hn : rest.find? (·.key == key) = none := by
        simp only [List.find?_eq_none, beq_iff_eq]
        intro other hm he
        exact h.1 (hk ▸ he ▸ List.mem_map_of_mem hm)
      rw [hn]
      rfl
    · rfl

theorem keys_insertMany : (map.insertMany entries).keys =
    map.keys ++ (entries.map Attribute.key).filter (!map.contains ·) := by
  induction entries generalizing map with
  | nil => simp [insertMany]
  | cons entry rest ih =>
    rw [List.map_cons, List.nodup_cons] at h
    rw [insertMany, List.foldl_cons, ← insertMany, ih (map.insert entry) h.2, keys_insert,
      List.map_cons, List.filter_cons]
    have hc : (rest.map Attribute.key).filter (!(map.insert entry).contains ·) =
        (rest.map Attribute.key).filter (!map.contains ·) := by
      apply List.filter_congr
      intro key hm
      have hk : entry.key ≠ key := fun he => h.1 (he ▸ hm)
      simp only [contains, get?_insert, hk, if_false]
    rw [hc]
    cases map.contains entry.key <;> simp

end InsertMany

theorem ofList_eq {entries : List Attribute} (h : (entries.map Attribute.key).Nodup) :
    ofList entries = ⟨entries, h⟩ := by
  apply ext_get?
  · rw [ofList, keys_insertMany empty h, keys_empty, List.nil_append]
    exact List.filter_eq_self.mpr fun _ _ => rfl
  · intro key
    rw [ofList, get?_insertMany empty h, get?_empty, Option.or_none]
    rfl

theorem mem_keys_insertMany (map : Attrs) (entries : List Attribute) {key : String} :
    key ∈ (map.insertMany entries).keys ↔ key ∈ entries.map Attribute.key ∨ key ∈ map.keys := by
  induction entries generalizing map with
  | nil => simp [insertMany]
  | cons entry rest ih =>
    have hp : key ∈ (map.insert entry).keys ↔ key = entry.key ∨ key ∈ map.keys :=
      Attribute.mem_keys_place
    rw [insertMany, List.foldl_cons, ← insertMany, ih, hp, List.map_cons, List.mem_cons,
      or_left_comm, or_assoc]

theorem get?_update (map other : Attrs) (key : String) :
    (map.update other).get? key = (other.get? key).or (map.get? key) :=
  map.get?_insertMany other.distinct key

theorem keys_update (map other : Attrs) :
    (map.update other).keys = map.keys ++ other.keys.filter (!map.contains ·) :=
  map.keys_insertMany other.distinct

end Markup.Attrs
