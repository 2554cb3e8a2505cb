import Markup.Proofs.Tree.Lookup
import Markup.Tree.Merge

set_option autoImplicit false

/-!
# Merging

Updating maps is associative, with the empty map as its unit, order of the keys included. Merging
attributes into a node is an action of it: merging twice is merging an updated map once. A missing
map counts as the empty one.
-/

namespace Markup

/-! ## Updating -/

namespace Attrs

theorem update_empty (map : Attrs) : map.update .empty = map := rfl

theorem empty_update (map : Attrs) : empty.update map = map := by
  apply ext_get?
  · rw [keys_update, keys_empty, List.nil_append, List.filter_eq_self]
    intro key _
    rfl
  · intro key
    rw [get?_update, get?_empty, Option.or_none]

theorem contains_update (map other : Attrs) (key : String) :
    (map.update other).contains key = (other.contains key || map.contains key) := by
  rw [contains, get?_update, Option.isSome_or]
  rfl

theorem update_update (a b c : Attrs) : (a.update b).update c = a.update (b.update c) := by
  apply ext_get?
  · simp only [keys_update, List.filter_append, List.filter_filter, List.append_assoc]
    -- the keys of `c` that are new to both maps are left over on either side
    have hc : c.keys.filter (fun key => !(a.update b).contains key) =
        c.keys.filter fun key => !a.contains key && !b.contains key := by
      apply List.filter_congr
      intro key _
      rw [contains_update, Bool.not_or, Bool.and_comm]
    rw [hc]
  · intro key
    simp only [get?_update, Option.or_assoc]

theorem isEmpty_iff {map : Attrs} : map.isEmpty = true ↔ map = .empty := by
  rw [isEmpty, List.isEmpty_iff]
  constructor
  · intro h
    exact Attrs.ext h
  · rintro rfl
    rfl

theorem eq_empty_of_update_eq_empty {map other : Attrs} (h : map.update other = .empty) :
    map = .empty := by
  have hk : (map.update other).keys = [] := by rw [h, keys_empty]
  rw [keys_update, List.append_eq_nil_iff] at hk
  exact Attrs.ext (List.map_eq_nil_iff.mp hk.1)

end Attrs

/-! ## Merging -/

namespace Node

theorem addAttrs_list (more : Attrs) (head : Node) (rest : List Node) :
    addAttrs more (.list (head :: rest)) =
      .list (head :: .attrs (((splitAttrs rest).1.getD .empty).update more) ::
        (splitAttrs rest).2) := by
  have own (map : Attrs) : (Option.none.getD Attrs.empty).update map = map := map.empty_update
  cases rest with
  | nil => rw [addAttrs, splitAttrs, own] <;> exact nofun
  | cons first others =>
    cases first with
    | attrs map => rfl
    | null | scalar | raw | seq | list => rw [addAttrs, splitAttrs, own] <;> exact nofun

theorem addAttrs_addAttrs (node : Node) (a b : Attrs) :
    (node.addAttrs a).addAttrs b = node.addAttrs (a.update b) := by
  cases node with
  | list items =>
    cases items with
    | nil => rfl
    | cons head rest =>
      rw [addAttrs_list, addAttrs_list, addAttrs_list]
      simp only [splitAttrs, Option.getD_some, Attrs.update_update]
  | null | scalar | raw | seq | attrs => rfl

theorem mergeAttrs_eq (node : Node) (more? : Option Attrs) :
    node.mergeAttrs more? = node.mergeAttrs (some (more?.getD .empty)) := by
  cases more? <;> rfl

theorem mergeAttrs_empty (node : Node) : node.mergeAttrs (some .empty) = node := rfl

theorem mergeAttrs_some {more : Attrs} (h : more ≠ .empty) (node : Node) :
    node.mergeAttrs (some more) = node.addAttrs more :=
  if_neg (mt Attrs.isEmpty_iff.mp h)

theorem mergeAttrs_mergeAttrs (node : Node) (a b : Attrs) :
    (node.mergeAttrs (some a)).mergeAttrs (some b) = node.mergeAttrs (some (a.update b)) := by
  by_cases ha : a = .empty
  · rw [ha, mergeAttrs_empty, Attrs.empty_update]
  · by_cases hb : b = .empty
    · rw [hb, mergeAttrs_empty, Attrs.update_empty]
    · have hab : a.update b ≠ .empty := mt Attrs.eq_empty_of_update_eq_empty ha
      rw [mergeAttrs_some ha, mergeAttrs_some hb, mergeAttrs_some hab, addAttrs_addAttrs]

/-- Merging is an action of updating: two maps merged into a node one after the other are the
    updated map merged once, and so for the builders that take attributes. -/
theorem merge_is_action (node : Node) (a? b? : Option Attrs) :
    let both := (a?.getD .empty).update (b?.getD .empty)
    (node.mergeAttrs a?).mergeAttrs b? = node.mergeAttrs (some both) ∧
      (∀ (α : Type) (build : α → Node) (argument : α),
        withAttrs (withAttrs build a?) b? argument = withAttrs build (some both) argument) ∧
      ∀ (build : List Node → Node) (a b : Attrs) (arguments : List Node),
        withLeadingAttrs (withLeadingAttrs build) (.attrs b :: .attrs a :: arguments) =
          withLeadingAttrs build (.attrs (a.update b) :: arguments) := by
  have action (node : Node) : (node.mergeAttrs a?).mergeAttrs b? =
      node.mergeAttrs (some ((a?.getD .empty).update (b?.getD .empty))) := by
    rw [mergeAttrs_eq node, mergeAttrs_eq _ b?, mergeAttrs_mergeAttrs]
  refine ⟨action node, fun α build argument => action (build argument), ?_⟩
  intro build a b arguments
  exact mergeAttrs_mergeAttrs (build arguments) a b

end Node

end Markup
