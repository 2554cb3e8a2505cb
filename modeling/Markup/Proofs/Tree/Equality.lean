import Mathlib.Data.List.Perm.Subperm
import Markup.Proofs.Tree.Lookup
import Markup.Tree.Node

set_option autoImplicit false

/-!
# Equality of trees

Apart from floating-point numbers, equal scalars are the same, and so are equal values of
attributes. Equal maps have the same keys with equal values: they are of one size, so a map that
has all the keys of another has no more. On all of these, equality is symmetric and transitive,
and what is equal to itself holds nothing that is no number.
-/

namespace Markup

/-! ## Scalars -/

namespace Binary64

variable {x y z : Binary64}

theorem numEq_iff : x.numEq y = true ↔ (x.isNaN = false ∧ y.isNaN = false) ∧
    (x.bits = y.bits ∨ (x.code = 0 ∧ y.code = 0)) := by
  simp [numEq]

theorem numEq_self_iff : x.numEq x = true ↔ x.isNaN = false := by
  simp [numEq_iff]

theorem numEq_symm (h : x.numEq y = true) : y.numEq x = true := by
  rw [numEq_iff] at h ⊢
  exact ⟨h.1.symm, h.2.imp Eq.symm And.symm⟩

theorem numEq_trans (hx : x.numEq y = true) (hy : y.numEq z = true) : x.numEq z = true := by
  rw [numEq_iff] at hx hy ⊢
  have hc {a b : Binary64} (h : a.bits = b.bits) : a.code = b.code := by rw [code, code, h]
  refine ⟨⟨hx.1.1, hy.1.2⟩, ?_⟩
  rcases hx.2 with hxy | ⟨hx₀, hy₀⟩
  · rcases hy.2 with hyz | ⟨hy₀, hz₀⟩
    · exact .inl (hxy.trans hyz)
    · exact .inr ⟨(hc hxy).trans hy₀, hz₀⟩
  · rcases hy.2 with hyz | ⟨-, hz₀⟩
    · exact .inr ⟨hx₀, (hc hyz).symm.trans hy₀⟩
    · exact .inr ⟨hx₀, hz₀⟩

end Binary64

namespace Scalar

def isFloat : Scalar → Bool
  | .float _ => true
  | _ => false

def isNaN : Scalar → Bool
  | .float value => value.isNaN
  | _ => false

/-- Equal scalars are the same, unless they are floating-point numbers. -/
theorem beq_iff {a b : Scalar} : (a == b) = true ↔ (a = b ∧ b.isFloat = false) ∨
    ∃ x y, a = .float x ∧ b = .float y ∧ x.numEq y = true := by
  change Scalar.beq a b = true ↔ _
  cases a <;> cases b <;> simp [Scalar.beq, isFloat]

theorem eq_of_beq {a b : Scalar} (hf : b.isFloat = false) (h : (a == b) = true) : a = b := by
  rcases beq_iff.mp h with ⟨he, -⟩ | ⟨x, y, -, rfl, -⟩
  · exact he
  · cases hf

theorem beq_self_iff {a : Scalar} : (a == a) = true ↔ a.isNaN = false := by
  rw [beq_iff]
  cases a <;> simp [isFloat, isNaN, Binary64.numEq_self_iff]

instance : PartialEquivBEq Scalar where
  symm {a b} h := by
    rcases beq_iff.mp h with ⟨rfl, -⟩ | ⟨x, y, rfl, rfl, hn⟩
    · exact h
    · exact beq_iff.mpr (.inr ⟨y, x, rfl, rfl, Binary64.numEq_symm hn⟩)
  trans {a b c} hab hbc := by
    rcases beq_iff.mp hab with ⟨rfl, -⟩ | ⟨x, y, rfl, rfl, hxy⟩
    · exact hbc
    · rcases beq_iff.mp hbc with ⟨rfl, hf⟩ | ⟨_, z, he, rfl, hyz⟩
      · cases hf
      · cases he
        exact beq_iff.mpr (.inr ⟨x, z, rfl, rfl, Binary64.numEq_trans hxy hyz⟩)

end Scalar

/-! ## Values -/

instance partialEquivBEq_list {α : Type} [BEq α] [PartialEquivBEq α] :
    PartialEquivBEq (List α) where
  symm {as bs} h := by
    induction as generalizing bs with
    | nil =>
      cases bs with
      | nil => rfl
      | cons b bs => cases h
    | cons a as ih =>
      cases bs with
      | nil => cases h
      | cons b bs =>
        rw [List.cons_beq_cons, Bool.and_eq_true] at h ⊢
        exact ⟨BEq.symm h.1, ih h.2⟩
  trans {as bs cs} hab hbc := by
    induction as generalizing bs cs with
    | nil =>
      cases bs with
      | nil => exact hbc
      | cons b bs => cases hab
    | cons a as ih =>
      cases bs with
      | nil => cases hab
      | cons b bs =>
        cases cs with
        | nil => cases hbc
        | cons c cs =>
          rw [List.cons_beq_cons, Bool.and_eq_true] at hab hbc ⊢
          exact ⟨BEq.trans hab.1 hbc.1, ih hab.2 hbc.2⟩

namespace AttrValue

def scalars : AttrValue → List Scalar
  | .null => []
  | .scalar value => [value]
  | .list values => values

theorem list_eq_of_beq {as bs : List Scalar} (hf : ∀ value ∈ bs, value.isFloat = false)
    (h : (as == bs) = true) : as = bs := by
  induction as generalizing bs with
  | nil =>
    cases bs with
    | nil => rfl
    | cons b bs => cases h
  | cons a as ih =>
    cases bs with
    | nil => cases h
    | cons b bs =>
      obtain ⟨hb, hbs⟩ := List.forall_mem_cons.mp hf
      rw [List.cons_beq_cons, Bool.and_eq_true] at h
      rw [Scalar.eq_of_beq hb h.1, ih hbs h.2]

theorem list_beq_self_iff {values : List Scalar} :
    (values == values) = true ↔ ∀ value ∈ values, value.isNaN = false := by
  induction values with
  | nil => simp
  | cons value rest ih =>
    rw [List.cons_beq_cons, Bool.and_eq_true, ih, Scalar.beq_self_iff, List.forall_mem_cons]

theorem beq_iff {a b : AttrValue} : (a == b) = true ↔ (a = .null ∧ b = .null) ∨
    (∃ v w, a = .scalar v ∧ b = .scalar w ∧ (v == w) = true) ∨
    ∃ vs ws, a = .list vs ∧ b = .list ws ∧ (vs == ws) = true := by
  change AttrValue.beq a b = true ↔ _
  cases a <;> cases b <;> simp [AttrValue.beq]

theorem eq_of_beq {a b : AttrValue} (hf : ∀ value ∈ b.scalars, value.isFloat = false)
    (h : (a == b) = true) : a = b := by
  rcases beq_iff.mp h with ⟨rfl, rfl⟩ | ⟨v, w, rfl, rfl, he⟩ | ⟨vs, ws, rfl, rfl, he⟩
  · rfl
  · rw [Scalar.eq_of_beq (hf w (List.mem_singleton_self w)) he]
  · exact congrArg list (list_eq_of_beq hf he)

theorem beq_self_iff {value : AttrValue} :
    (value == value) = true ↔ ∀ scalar ∈ value.scalars, scalar.isNaN = false := by
  rw [beq_iff]
  cases value <;> simp [scalars, Scalar.beq_self_iff, list_beq_self_iff]

instance : PartialEquivBEq AttrValue where
  symm {a b} h := by
    rcases beq_iff.mp h with ⟨rfl, rfl⟩ | ⟨v, w, rfl, rfl, he⟩ | ⟨vs, ws, rfl, rfl, he⟩
    · exact h
    · exact beq_iff.mpr (.inr (.inl ⟨w, v, rfl, rfl, BEq.symm he⟩))
    · exact beq_iff.mpr (.inr (.inr ⟨ws, vs, rfl, rfl, BEq.symm he⟩))
  trans {a b c} hab hbc := by
    rcases beq_iff.mp hab with ⟨rfl, rfl⟩ | ⟨u, v, rfl, rfl, huv⟩ | ⟨us, vs, rfl, rfl, huv⟩
    · exact hbc
    · rcases beq_iff.mp hbc with ⟨h, -⟩ | ⟨_, w, h, rfl, hvw⟩ | ⟨_, _, h, -, -⟩ <;> cases h
      exact beq_iff.mpr (.inr (.inl ⟨u, w, rfl, rfl, BEq.trans huv hvw⟩))
    · rcases beq_iff.mp hbc with ⟨h, -⟩ | ⟨_, _, h, -, -⟩ | ⟨_, ws, h, rfl, hvw⟩ <;> cases h
      exact beq_iff.mpr (.inr (.inr ⟨us, ws, rfl, rfl, BEq.trans huv hvw⟩))

end AttrValue

/-! ## Maps -/

namespace Attrs

def scalars (map : Attrs) : List Scalar := map.entries.flatMap fun entry => entry.value.scalars

variable {a b : Attrs}

theorem mem_keys_iff_of_subset (hs : a.keys ⊆ b.keys) (hl : a.size = b.size) (key : String) :
    key ∈ a.keys ↔ key ∈ b.keys := by
  have hle : b.keys.length ≤ a.keys.length := by
    rw [keys, keys, List.length_map, List.length_map]
    exact Nat.le_of_eq hl.symm
  -- different keys in the same number leave no room for another one
  exact ((List.subperm_of_subset a.distinct hs).perm_of_length_le hle).mem_iff

theorem size_eq_of_mem_keys_iff (hk : ∀ key, key ∈ a.keys ↔ key ∈ b.keys) : a.size = b.size := by
  have hp : a.keys.Perm b.keys := (List.perm_ext_iff_of_nodup a.distinct b.distinct).mpr hk
  have hl := hp.length_eq
  rwa [keys, keys, List.length_map, List.length_map] at hl

theorem exists_get?_of_beq (h : (a == b) = true) {key : String} {value : AttrValue}
    (hg : a.get? key = some value) :
    ∃ other, b.get? key = some other ∧ (value == other) = true := by
  have hv : (b.get? key == some value) = true := List.all_eq_true.mp
    (Bool.and_eq_true_iff.mp h).2 ⟨key, value⟩ (get?_eq_some_iff.mp hg)
  cases ho : b.get? key with
  | none => simp [ho] at hv
  | some other =>
    rw [ho, Option.some_beq_some] at hv
    exact ⟨other, rfl, BEq.symm hv⟩

theorem beq_iff : (a == b) = true ↔ (∀ key, key ∈ a.keys ↔ key ∈ b.keys) ∧
    ∀ key v w, a.get? key = some v → b.get? key = some w → (v == w) = true := by
  constructor
  · intro h
    have hs : a.keys ⊆ b.keys := by
      intro key hm
      obtain ⟨value, hv⟩ := mem_keys_iff.mp hm
      obtain ⟨other, ho, -⟩ := exists_get?_of_beq h hv
      exact mem_keys_iff.mpr ⟨other, ho⟩
    refine ⟨mem_keys_iff_of_subset hs (beq_iff_eq.mp (Bool.and_eq_true_iff.mp h).1), ?_⟩
    intro key v w ha hb
    obtain ⟨other, ho, he⟩ := exists_get?_of_beq h ha
    cases ho.symm.trans hb
    exact he
  · rintro ⟨hk, hv⟩
    refine Bool.and_eq_true_iff.mpr
      ⟨beq_iff_eq.mpr (size_eq_of_mem_keys_iff hk), List.all_eq_true.mpr ?_⟩
    intro entry hm
    have ha := get?_of_mem hm
    obtain ⟨other, ho⟩ := mem_keys_iff.mp ((hk _).mp (mem_keys_iff.mpr ⟨_, ha⟩))
    rw [ho, Option.some_beq_some]
    exact BEq.symm (hv _ _ _ ha ho)

theorem sameValues_of_beq (hf : ∀ value ∈ a.scalars, value.isFloat = false)
    (h : (a == b) = true) : a.SameValues b := by
  intro key
  cases hg : a.get? key with
  | some value =>
    have hm : ⟨key, value⟩ ∈ a.entries := get?_eq_some_iff.mp hg
    obtain ⟨other, ho, he⟩ := exists_get?_of_beq h hg
    rw [ho, AttrValue.eq_of_beq (fun s hs => hf s (List.mem_flatMap.mpr ⟨_, hm, hs⟩)) (BEq.symm he)]
  | none =>
    rw [get?_eq_none_iff, (beq_iff.mp h).1] at hg
    exact (get?_eq_none_iff.mpr hg).symm

theorem beq_self_iff {map : Attrs} :
    (map == map) = true ↔ ∀ value ∈ map.scalars, value.isNaN = false := by
  have hs : (∀ value ∈ map.scalars, value.isNaN = false) ↔
      ∀ entry ∈ map.entries, (entry.value == entry.value) = true := by
    simp only [scalars, List.mem_flatMap, AttrValue.beq_self_iff]
    exact ⟨fun h entry hm value hv => h value ⟨entry, hm, hv⟩,
      fun h value ⟨entry, hm, hv⟩ => h entry hm value hv⟩
  rw [beq_iff, hs]
  constructor
  · intro h entry hm
    exact h.2 _ _ _ (get?_of_mem hm) (get?_of_mem hm)
  · intro h
    refine ⟨fun _ => Iff.rfl, fun key v w hv hw => ?_⟩
    cases hv.symm.trans hw
    exact h ⟨key, v⟩ (get?_eq_some_iff.mp hv)

instance : PartialEquivBEq Attrs where
  symm {a b} h := by
    obtain ⟨hk, hv⟩ := beq_iff.mp h
    exact beq_iff.mpr ⟨fun key => (hk key).symm, fun key v w hb ha => BEq.symm (hv key w v ha hb)⟩
  trans {a b c} hab hbc := by
    refine beq_iff.mpr ⟨fun key => ((beq_iff.mp hab).1 key).trans ((beq_iff.mp hbc).1 key), ?_⟩
    intro key u w ha hc
    obtain ⟨v, hb, huv⟩ := exists_get?_of_beq hab ha
    exact BEq.trans huv ((beq_iff.mp hbc).2 key v w hb hc)

end Attrs

/-! ## Nodes -/

namespace Node

mutual

/-- The scalars anywhere in a node: in its text and in its attributes. -/
def scalars : Node → List Scalar
  | .null => []
  | .raw _ => []
  | .scalar value => [value]
  | .seq items => listScalars items
  | .list items => listScalars items
  | .attrs map => map.scalars

def listScalars : List Node → List Scalar
  | [] => []
  | node :: rest => scalars node ++ listScalars rest

end

theorem forall_mem_listScalars {p : Scalar → Prop} {items : List Node} :
    (∀ value ∈ listScalars items, p value) ↔ ∀ node ∈ items, ∀ value ∈ node.scalars, p value := by
  induction items with
  | nil => simp [listScalars]
  | cons node rest ih =>
    rw [listScalars, List.forall_mem_append, ih, List.forall_mem_cons]

/-! A node is equal to nodes of its own kind only, and a sequence to none. -/

section Kinds

variable {node : Node}

theorem null_beq_iff : Node.beq .null node = true ↔ node = .null := by
  cases node <;> simp [Node.beq]

theorem scalar_beq_iff {value : Scalar} : Node.beq (.scalar value) node = true ↔
    ∃ other, node = .scalar other ∧ (value == other) = true := by
  cases node <;> simp [Node.beq]

theorem raw_beq_iff {markup : String} :
    Node.beq (.raw markup) node = true ↔ node = .raw markup := by
  cases node <;> simp [Node.beq, @eq_comm _ markup]

theorem seq_beq (items : List Node) : Node.beq (.seq items) node = false := by
  cases node <;> rfl

theorem list_beq_iff {items : List Node} : Node.beq (.list items) node = true ↔
    ∃ others, node = .list others ∧ Node.beqList items others = true := by
  cases node <;> simp [Node.beq]

theorem attrs_beq_iff {map : Attrs} :
    Node.beq (.attrs map) node = true ↔ ∃ other, node = .attrs other ∧ (map == other) = true := by
  cases node <;> simp [Node.beq]

end Kinds

end Node

end Markup
