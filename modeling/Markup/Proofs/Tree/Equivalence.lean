import Markup.Proofs.Tree.Equality

set_option autoImplicit false

/-!
# Equality as a partial equivalence

Equality of trees is symmetric and transitive. It is not reflexive: a sequence is equal to nothing,
and neither is what is no number. A tree without these is equal to itself.
-/

namespace Markup

namespace Node

inductive SeqFree : Node → Prop
  | null : SeqFree .null
  | scalar (value : Scalar) : SeqFree (.scalar value)
  | raw (markup : String) : SeqFree (.raw markup)
  | list {items : List Node} (h : ∀ item ∈ items, item.SeqFree) : SeqFree (.list items)
  | attrs (map : Attrs) : SeqFree (.attrs map)

theorem not_seqFree_seq (items : List Node) : ¬ (Node.seq items).SeqFree := nofun

theorem seqFree_list_iff {items : List Node} :
    (Node.list items).SeqFree ↔ ∀ item ∈ items, item.SeqFree :=
  ⟨fun h => by cases h with | list h => exact h, .list⟩

mutual

theorem beq_symm (a : Node) {b : Node} (h : Node.beq a b = true) : Node.beq b a = true := by
  cases a with
  | null =>
    obtain rfl := null_beq_iff.mp h
    exact h
  | scalar value =>
    obtain ⟨other, rfl, hv⟩ := scalar_beq_iff.mp h
    exact scalar_beq_iff.mpr ⟨value, rfl, BEq.symm hv⟩
  | raw markup =>
    obtain rfl := raw_beq_iff.mp h
    exact h
  | seq items => simp [seq_beq] at h
  | list items =>
    obtain ⟨others, rfl, hi⟩ := list_beq_iff.mp h
    exact list_beq_iff.mpr ⟨items, rfl, beqList_symm items hi⟩
  | attrs map =>
    obtain ⟨other, rfl, hm⟩ := attrs_beq_iff.mp h
    exact attrs_beq_iff.mpr ⟨map, rfl, BEq.symm hm⟩

theorem beqList_symm (as : List Node) {bs : List Node} (h : Node.beqList as bs = true) :
    Node.beqList bs as = true := by
  cases as with
  | nil =>
    cases bs with
    | nil => exact h
    | cons b bs => cases h
  | cons a as =>
    cases bs with
    | nil => cases h
    | cons b bs =>
      rw [Node.beqList, Bool.and_eq_true] at h ⊢
      exact ⟨beq_symm a h.1, beqList_symm as h.2⟩

end

mutual

theorem beq_trans (a : Node) {b c : Node} (hab : Node.beq a b = true)
    (hbc : Node.beq b c = true) : Node.beq a c = true := by
  cases a with
  | null =>
    obtain rfl := null_beq_iff.mp hab
    exact hbc
  | scalar value =>
    obtain ⟨second, rfl, hv⟩ := scalar_beq_iff.mp hab
    obtain ⟨third, rfl, hw⟩ := scalar_beq_iff.mp hbc
    exact scalar_beq_iff.mpr ⟨third, rfl, BEq.trans hv hw⟩
  | raw markup =>
    obtain rfl := raw_beq_iff.mp hab
    exact hbc
  | seq items => simp [seq_beq] at hab
  | list items =>
    obtain ⟨second, rfl, hi⟩ := list_beq_iff.mp hab
    obtain ⟨third, rfl, hj⟩ := list_beq_iff.mp hbc
    exact list_beq_iff.mpr ⟨third, rfl, beqList_trans items hi hj⟩
  | attrs map =>
    obtain ⟨second, rfl, hm⟩ := attrs_beq_iff.mp hab
    obtain ⟨third, rfl, hn⟩ := attrs_beq_iff.mp hbc
    exact attrs_beq_iff.mpr ⟨third, rfl, BEq.trans hm hn⟩

theorem beqList_trans (as : List Node) {bs cs : List Node} (hab : Node.beqList as bs = true)
    (hbc : Node.beqList bs cs = true) : Node.beqList as cs = true := by
  cases as with
  | nil =>
    cases bs with
    | nil => exact hbc
    | cons b bs => cases hab
  | cons a as =>
    cases bs with
    | nil => cases hab
    | cons b bs =>
      cases cs with
      | nil => cases hbc
      | cons c cs =>
        rw [Node.beqList, Bool.and_eq_true] at hab hbc ⊢
        exact ⟨beq_trans a hab.1 hbc.1, beqList_trans as hab.2 hbc.2⟩

end

instance : PartialEquivBEq Node := ⟨beq_symm _, beq_trans _⟩

mutual

theorem beq_self_iff : ∀ node : Node, Node.beq node node = true ↔
    node.SeqFree ∧ ∀ value ∈ node.scalars, value.isNaN = false
  | .null => by simp [Node.beq, scalars, SeqFree.null]
  | .scalar value => by
    rw [Node.beq, Scalar.beq_self_iff]
    simp [scalars, SeqFree.scalar]
  | .raw markup => by simp [Node.beq, scalars, SeqFree.raw]
  | .seq items => by simp [seq_beq, not_seqFree_seq]
  | .list items => by
    rw [Node.beq, beqList_self_iff items, seqFree_list_iff, scalars]
  | .attrs map => by
    rw [Node.beq, Attrs.beq_self_iff, scalars]
    simp [SeqFree.attrs]

theorem beqList_self_iff : ∀ items : List Node, Node.beqList items items = true ↔
    (∀ item ∈ items, item.SeqFree) ∧ ∀ value ∈ listScalars items, value.isNaN = false
  | [] => by simp [Node.beqList, listScalars]
  | node :: rest => by
    rw [Node.beqList, Bool.and_eq_true, beq_self_iff node, beqList_self_iff rest, listScalars,
      List.forall_mem_cons, List.forall_mem_append, and_and_and_comm]

end

end Node

/-- Equality of trees is a partial equivalence. A tree is equal to itself exactly if there is
    neither a sequence nor a scalar that is no number anywhere in it. Attribute maps are equal
    exactly if they have the same keys with equal values. -/
theorem tree_equality_partial :
    (∀ a b : Node, (a == b) = true → (b == a) = true) ∧
      (∀ a b c : Node, (a == b) = true → (b == c) = true → (a == c) = true) ∧
      (∀ node : Node, (node == node) = true ↔
        node.SeqFree ∧ ∀ value ∈ node.scalars, value.isNaN = false) ∧
      ∀ a b : Attrs, (Node.attrs a == Node.attrs b) = (a == b) ∧
        ((a == b) = true ↔ (∀ key, key ∈ a.keys ↔ key ∈ b.keys) ∧
          ∀ key v w, a.get? key = some v → b.get? key = some w → (v == w) = true) := by
  refine ⟨fun a b h => BEq.symm h, fun a b c hab hbc => BEq.trans hab hbc, Node.beq_self_iff, ?_⟩
  exact fun a b => ⟨rfl, Attrs.beq_iff⟩

/-- The two zeros are equal, also in maps of a different order; a scalar that is no number is not
    equal to itself. -/
theorem tree_equality_partial_zeros :
    let item (first second : String × AttrValue) :=
      Node.elementWith "li" (.ofPairs [first, second]) [.null]
    let zero := item ("value", .scalar (.float (.ofCode false 0))) ("class", .list [.str "c"])
    let minusZero := item ("class", .list [.str "c"]) ("value", .scalar (.float (.ofCode true 0)))
    let undefined := Scalar.float (.ofCode false (Binary64.infinityCode + 1))
    (zero == minusZero) = true ∧ (minusZero == zero) = true ∧ (zero == zero) = true ∧
      undefined.isNaN = true ∧ (Node.scalar undefined == Node.scalar undefined) = false := by
  intro item zero minusZero undefined
  obtain ⟨hsymm, htrans, hself, -⟩ := tree_equality_partial
  have h : (zero == minusZero) = true := by decide +kernel
  have hn : undefined.isNaN = true := by decide
  refine ⟨h, hsymm _ _ h, htrans _ _ _ h (hsymm _ _ h), hn, Bool.eq_false_iff.mpr fun he => ?_⟩
  have hf := ((hself _).mp he).2 undefined (List.mem_singleton_self _)
  exact absurd (hf.symm.trans hn) (by decide)

end Markup
