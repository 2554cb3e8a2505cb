import Markup.Json.Tree
import Markup.Proofs.Tree.Keyed
import Markup.Proofs.Tree.Lookup

set_option autoImplicit false

/-!
# Reading trees back

A tree made from a JSON value still holds the value. Only what an object keeps under a key more
deeply than in a list of scalars turns into text; a value without such members can be read back from
its tree as it was.
-/

namespace Markup.Json

/-! ## Values -/

/-- A value in which no object has a key twice. -/
inductive WellFormed : Json → Prop
  | null : WellFormed .null
  | scalar {json : Json} (h : json.isScalar = true) : WellFormed json
  | array {items : List Json} (h : ∀ item ∈ items, WellFormed item) : WellFormed (.array items)
  | object {members : List (String × Json)} (hd : (members.map Prod.fst).Nodup)
    (h : ∀ member ∈ members, WellFormed member.2) : WellFormed (.object members)

def isShallow : Json → Bool
  | .null => true
  | .array items => items.all isScalar
  | json => json.isScalar

/-- A value in which all members of objects are shallow. -/
inductive Flat : Json → Prop
  | null : Flat .null
  | scalar {json : Json} (h : json.isScalar = true) : Flat json
  | array {items : List Json} (h : ∀ item ∈ items, Flat item) : Flat (.array items)
  | object {members : List (String × Json)} (h : ∀ member ∈ members, member.2.isShallow = true) :
    Flat (.object members)

/-! ## Reading back -/

def Number.ofInt? (value : Int) : Option Number :=
  if h : -0x8000000000000000 ≤ value ∧ value < 0 then
    some (.negative (Int64.ofInt value) (ofInt_neg h))
  else if 0 ≤ value ∧ value < 0x10000000000000000 then some (.unsigned (UInt64.ofNat value.toNat))
  else none

/-- The value that a scalar stands for. There is none for fractions and URIs. -/
def ofScalar? : Scalar → Option Json
  | .str text => some (.string text)
  | .int value => (Number.ofInt? value).map .number
  | .float value => some (.number (.float value))
  | .bool value => some (.bool value)
  | .fraction _ => none
  | .uri _ => none

def ofAttrValue? : AttrValue → Option Json
  | .null => some .null
  | .scalar value => ofScalar? value
  | .list values => (values.mapM ofScalar?).map .array

def ofAttribute? (entry : Attribute) : Option (String × Json) :=
  (ofAttrValue? entry.value).map (entry.key, ·)

mutual

/-- The value that a tree stands for: an element is a list, an attribute map an object. -/
def ofNode? : Node → Option Json
  | .null => some .null
  | .scalar value => ofScalar? value
  | .raw _ => none
  | .seq _ => none
  | .list items => (ofNodes? items).map .array
  | .attrs map => (map.entries.mapM ofAttribute?).map .object

def ofNodes? : List Node → Option (List Json)
  | [] => some []
  | node :: rest =>
    match ofNode? node, ofNodes? rest with
    | some value, some values => some (value :: values)
    | _, _ => none

end

/-! ## Numbers and scalars -/

namespace Number

/-- Numbers up to the greatest signed one take one way into a tree and the others another, with the
    same result. -/
theorem scalar_unsigned (value : UInt64) : (unsigned value).scalar = .int value.toNat := by
  unfold scalar asSigned?
  by_cases h : value ≤ 0x7FFFFFFFFFFFFFFF
  · have hn : value.toNat ≤ 0x7FFFFFFFFFFFFFFF := UInt64.le_iff_toNat_le.mp h
    have hs : value.toInt64.toInt = value.toNat := by
      change value.toBitVec.toInt = value.toBitVec.toNat
      exact BitVec.toInt_eq_toNat_of_lt (by change 2 * value.toNat < _; omega)
    simp only [h, if_true, hs]
  · simp only [h, if_false]
    rfl

theorem scalar_negative (value : Int64) (h : value < 0) :
    (negative value h).scalar = .int value.toInt := rfl

theorem scalar_float (value : Binary64) : (float value).scalar = .float value := rfl

theorem ofInt?_toNat (value : UInt64) : ofInt? value.toNat = some (.unsigned value) := by
  have hv := value.toNat_lt
  rw [ofInt?, dif_neg (by omega), if_pos (by omega), Int.toNat_natCast, UInt64.ofNat_toNat]

theorem ofInt?_toInt (value : Int64) (h : value < 0) :
    ofInt? value.toInt = some (.negative value h) := by
  have hb : -0x8000000000000000 ≤ value.toInt ∧ value.toInt < 0 :=
    ⟨value.le_toInt, Int64.toInt_zero ▸ Int64.lt_iff_toInt_lt.mp h⟩
  rw [ofInt?, dif_pos hb]
  simp only [Int64.ofInt_toInt]

theorem exists_scalar_eq_int {value : Int} (hl : -0x8000000000000000 ≤ value)
    (hu : value < 0x10000000000000000) :
    ∃ number, ofInt? value = some number ∧ number.scalar = .int value := by
  by_cases h : value < 0
  · have hb : -0x8000000000000000 ≤ value ∧ value < 0 := by omega
    refine ⟨.negative (Int64.ofInt value) (ofInt_neg hb), by rw [ofInt?, dif_pos hb], ?_⟩
    rw [scalar_negative, Int64.toInt_ofInt_of_le hl (by omega)]
  · refine ⟨.unsigned (UInt64.ofNat value.toNat), ?_, ?_⟩
    · rw [ofInt?, dif_neg (by omega), if_pos (by omega)]
    · rw [scalar_unsigned, UInt64.toNat_ofNat', Nat.mod_eq_of_lt (by omega),
        Int.toNat_of_nonneg (by omega)]

theorem ofScalar?_scalar (number : Number) : ofScalar? number.scalar = some (.number number) := by
  cases number with
  | unsigned value =>
    rw [scalar_unsigned, ofScalar?, ofInt?_toNat]
    rfl
  | negative value h =>
    rw [scalar_negative, ofScalar?, ofInt?_toInt]
    rfl
  | float value => rw [scalar_float, ofScalar?]

end Number

theorem leaf_of_scalar? {json : Json} {value : Scalar} (h : json.scalar? = some value) :
    ofScalar? value = some json ∧ json.node = .scalar value ∧ json.attrValue = .scalar value := by
  cases json with
  | bool b => exact Option.some.inj h ▸ ⟨rfl, rfl, rfl⟩
  | number number => exact Option.some.inj h ▸ ⟨number.ofScalar?_scalar, rfl, rfl⟩
  | string text => exact Option.some.inj h ▸ ⟨rfl, rfl, rfl⟩
  | null => cases h
  | array items => cases h
  | object members => cases h

theorem exists_scalar {json : Json} (h : json.isScalar = true) :
    ∃ value, json.scalar? = some value := by
  cases json with
  | bool b => exact ⟨_, rfl⟩
  | number n => exact ⟨_, rfl⟩
  | string text => exact ⟨_, rfl⟩
  | null => cases h
  | array items => cases h
  | object members => cases h

/-! ## Attributes -/

theorem mapM_filterMap_scalar? {items : List Json} (h : ∀ item ∈ items, item.isScalar = true) :
    (items.filterMap scalar?).mapM ofScalar? = some items := by
  induction items with
  | nil => rfl
  | cons item rest ih =>
    obtain ⟨value, hv⟩ := exists_scalar (h item List.mem_cons_self)
    have hr := ih fun other ho => h other (List.mem_cons_of_mem item ho)
    rw [List.filterMap_cons_some hv, List.mapM_cons, (leaf_of_scalar? hv).1, hr]
    rfl

theorem ofAttrValue?_of_isScalar {json : Json} (h : json.isScalar = true) :
    ofAttrValue? json.attrValue = some json := by
  obtain ⟨value, hv⟩ := exists_scalar h
  obtain ⟨hs, -, ha⟩ := leaf_of_scalar? hv
  rw [ha, ofAttrValue?, hs]

theorem ofAttrValue?_attrValue {json : Json} (h : json.isShallow = true) :
    ofAttrValue? json.attrValue = some json := by
  cases json with
  | null => rfl
  | array items =>
    have hs : items.all isScalar = true := h
    rw [attrValue, if_pos hs, ofAttrValue?, mapM_filterMap_scalar? (List.all_eq_true.mp hs)]
    rfl
  | object members => cases h
  | bool b => exact ofAttrValue?_of_isScalar h
  | number n => exact ofAttrValue?_of_isScalar h
  | string text => exact ofAttrValue?_of_isScalar h

def entryOf (member : String × Json) : Attribute := ⟨member.1, member.2.attrValue⟩

theorem attrs_eq (members : List (String × Json)) :
    attrs members = .ofList (members.map entryOf) := by
  rw [attrs, Attrs.ofPairs, List.map_map]
  rfl

theorem mapM_ofAttribute? {members : List (String × Json)}
    (h : ∀ member ∈ members, member.2.isShallow = true) :
    (members.map entryOf).mapM ofAttribute? = some members := by
  induction members with
  | nil => rfl
  | cons member rest ih =>
    have hr := ih fun other ho => h other (List.mem_cons_of_mem member ho)
    have hm : ofAttribute? (entryOf member) = some member := by
      rw [ofAttribute?, entryOf, ofAttrValue?_attrValue (h member List.mem_cons_self)]
      rfl
    rw [List.map_cons, List.mapM_cons, hm, hr]
    rfl

theorem entries_attrs {members : List (String × Json)} (h : (members.map Prod.fst).Nodup) :
    (attrs members).entries = members.map entryOf := by
  have hk : ((members.map entryOf).map Attribute.key).Nodup := by
    rwa [List.map_map]
  rw [attrs_eq, Attrs.ofList_eq hk]

/-! ## Trees -/

theorem ofNodes?_nodes {items : List Json}
    (h : ∀ item ∈ items, ofNode? item.node = some item) : ofNodes? (nodes items) = some items := by
  induction items with
  | nil => rfl
  | cons item rest ih =>
    have hr := ih fun other ho => h other (List.mem_cons_of_mem item ho)
    rw [nodes, ofNodes?, h item List.mem_cons_self, hr]

theorem ofNode?_node {json : Json} (hw : json.WellFormed) (hf : json.Flat) :
    ofNode? json.node = some json := by
  induction hf with
  | null => rfl
  | scalar h =>
    obtain ⟨value, hv⟩ := exists_scalar h
    obtain ⟨hs, hn, -⟩ := leaf_of_scalar? hv
    rw [hn, ofNode?, hs]
  | array h ih =>
    cases hw with
    | scalar h => cases h
    | array hw =>
      rw [node, ofNode?, ofNodes?_nodes fun item hi => ih item hi (hw item hi)]
      rfl
  | object h =>
    cases hw with
    | scalar h => cases h
    | object hd hw =>
      -- no key comes twice, so none of the members gives way to another
      rw [node, ofNode?, entries_attrs hd, mapM_ofAttribute? h]
      rfl

/-- A tree of data alone: it holds no markup and no sequences, and every map has its keys once. -/
inductive IsData : Node → Prop
  | null : IsData .null
  | scalar (value : Scalar) : IsData (.scalar value)
  | list {items : List Node} (h : ∀ item ∈ items, IsData item) : IsData (.list items)
  | attrs {map : Attrs} (h : map.keys.Nodup) : IsData (.attrs map)

mutual

theorem isData_node : ∀ json : Json, IsData json.node
  | .null => .null
  | .bool _ => .scalar _
  | .number _ => .scalar _
  | .string _ => .scalar _
  | .array items => .list (isData_nodes items)
  | .object members => .attrs (attrs members).distinct

theorem isData_nodes : ∀ items : List Json, ∀ item ∈ nodes items, IsData item
  | [] => nofun
  | first :: rest => by
    intro item hm
    rcases List.mem_cons.mp hm with rfl | hm
    · exact isData_node first
    · exact isData_nodes rest item hm

end

theorem mem_keys_attrs {members : List (String × Json)} {key : String} :
    key ∈ (attrs members).keys ↔ key ∈ members.map Prod.fst := by
  rw [attrs_eq, Attrs.ofList, Attrs.mem_keys_insertMany, List.map_map, Attrs.keys_empty]
  simp [entryOf]

/-! ## Values of texts -/

section Place

variable {key : String} {value : Json} {members : List (String × Json)}

theorem eq_or_mem_of_mem_place {member : String × Json} (h : member ∈ place key value members) :
    member = (key, value) ∨ member ∈ members := by
  induction members with
  | nil => exact .inl (List.mem_singleton.mp h)
  | cons first rest ih =>
    unfold place at h
    split at h
    · rw [List.mem_cons] at h ⊢
      exact h.imp_right .inr
    · split at h
      · exact List.mem_cons.mp h
      · rcases List.mem_cons.mp h with rfl | h
        · exact .inr List.mem_cons_self
        · exact (ih h).imp_right (List.mem_cons_of_mem first)

theorem ascending_place (key : String) (value : Json) {members : List (String × Json)}
    (h : Ascending members) : Ascending (place key value members) := by
  induction members with
  | nil => exact List.pairwise_singleton _ _
  | cons first rest ih =>
    obtain ⟨hf, hr⟩ := List.pairwise_cons.mp h
    unfold place
    split
    · next he =>
      subst he
      exact List.pairwise_cons.mpr ⟨hf, hr⟩
    · next hne =>
      split
      · next hlt =>
        refine List.pairwise_cons.mpr ⟨fun member hm => ?_, h⟩
        rcases List.mem_cons.mp hm with rfl | hm
        · exact hlt
        · exact hlt.trans (hf member hm)
      · next hge =>
        have hlt : first.1 < key := lt_of_le_of_ne (not_lt.mp hge) (Ne.symm hne)
        refine List.pairwise_cons.mpr ⟨fun member hm => ?_, ih hr⟩
        rcases eq_or_mem_of_mem_place hm with rfl | hm
        · exact hlt
        · exact hf member hm

end Place

theorem foldl_place (members : List (String × Json)) {sorted : List (String × Json)}
    (h : Ascending sorted) :
    let placed := members.foldl (fun sorted (key, value) => place key value sorted) sorted
    Ascending placed ∧ ∀ member ∈ placed, member ∈ sorted ∨ member ∈ members := by
  induction members generalizing sorted with
  | nil => exact ⟨h, fun _ hm => .inl hm⟩
  | cons first rest ih =>
    obtain ⟨ha, hs⟩ := ih (ascending_place first.1 first.2 h)
    refine ⟨ha, fun member hm => ?_⟩
    rcases hs member hm with hm | hm
    · rcases eq_or_mem_of_mem_place hm with rfl | hm
      · exact .inr List.mem_cons_self
      · exact .inl hm
    · exact .inr (List.mem_cons_of_mem first hm)

theorem wellFormed_sortMembers {members : List (String × Json)}
    (h : ∀ member ∈ members, member.2.WellFormed) : WellFormed (.object (sortMembers members)) := by
  have hn : Ascending ([] : List (String × Json)) := .nil
  obtain ⟨ha, hs⟩ := foldl_place members hn
  refine .object ?_ fun member hm => h member ((hs member hm).resolve_left List.not_mem_nil)
  exact List.pairwise_map.mpr (ha.imp ne_of_lt)

mutual

theorem wellFormed_of_ofDocument? : ∀ (depth : Nat) (document : Document) {json : Json},
    ofDocument? depth document = some json → json.WellFormed
  | _, .null, _, h => by
    rw [ofDocument?] at h
    exact Option.some.inj h ▸ .null
  | _, .bool _, _, h => by
    rw [ofDocument?] at h
    exact Option.some.inj h ▸ .scalar rfl
  | _, .number digits, _, h => by
    rw [ofDocument?] at h
    obtain ⟨number, -, rfl⟩ := Option.map_eq_some_iff.mp h
    exact .scalar rfl
  | _, .string pieces, _, h => by
    rw [ofDocument?] at h
    obtain ⟨text, -, rfl⟩ := Option.map_eq_some_iff.mp h
    exact .scalar rfl
  | 0, .list _, _, h => by
    rw [ofDocument?] at h
    cases h
  | 0, .object _, _, h => by
    rw [ofDocument?] at h
    cases h
  | depth + 1, .list items, _, h => by
    rw [ofDocument?] at h
    obtain ⟨values, hv, rfl⟩ := Option.map_eq_some_iff.mp h
    exact .array (wellFormed_of_ofDocuments? depth items hv)
  | depth + 1, .object members, _, h => by
    rw [ofDocument?] at h
    obtain ⟨values, hv, rfl⟩ := Option.map_eq_some_iff.mp h
    exact wellFormed_sortMembers (wellFormed_of_ofMembers? depth members hv)

theorem wellFormed_of_ofDocuments? : ∀ (depth : Nat) (documents : List Document)
    {values : List Json}, ofDocuments? depth documents = some values →
      ∀ value ∈ values, value.WellFormed
  | _, [], _, h => by
    rw [ofDocuments?] at h
    exact Option.some.inj h ▸ nofun
  | depth, document :: rest, values, h => by
    rw [ofDocuments?] at h
    split at h
    · next value others hd hr =>
      rw [← Option.some.inj h]
      intro found hm
      rcases List.mem_cons.mp hm with rfl | hm
      · exact wellFormed_of_ofDocument? depth document hd
      · exact wellFormed_of_ofDocuments? depth rest hr found hm
    · cases h

theorem wellFormed_of_ofMembers? : ∀ (depth : Nat) (members : List (List Piece × Document))
    {values : List (String × Json)}, ofMembers? depth members = some values →
      ∀ value ∈ values, value.2.WellFormed
  | _, [], _, h => by
    rw [ofMembers?] at h
    exact Option.some.inj h ▸ nofun
  | depth, (key, document) :: rest, values, h => by
    rw [ofMembers?] at h
    split at h
    · next name value others _ hd hr =>
      rw [← Option.some.inj h]
      intro found hm
      rcases List.mem_cons.mp hm with rfl | hm
      · exact wellFormed_of_ofDocument? depth document hd
      · exact wellFormed_of_ofMembers? depth rest hr found hm
    · cases h

end

/-- A value that is read from a text has no key twice. -/
theorem wellFormed_of_parse? {text : String} {json : Json} (h : parse? text = some json) :
    json.WellFormed := by
  obtain ⟨document, -, hd⟩ := Option.bind_eq_some_iff.mp h
  exact wellFormed_of_ofDocument? maxDepth document hd

/-- The tree of a flat value is read back as that value, with every integer of 64 bits as it is. The
    tree of any value is data alone, and its maps have the keys of the objects. -/
theorem tree_keeps_value :
    (∀ json : Json, json.WellFormed → json.Flat → ofNode? json.node = some json) ∧
    (∀ value : Int, -0x8000000000000000 ≤ value → value < 0x10000000000000000 →
      ∃ number, Number.ofInt? value = some number ∧
        (Json.number number).node = .scalar (.int value)) ∧
    (∀ json : Json, IsData json.node) ∧
    (∀ members key, key ∈ (attrs members).keys ↔ key ∈ members.map Prod.fst) := by
  refine ⟨fun _ => ofNode?_node, fun value hl hu => ?_, isData_node, fun _ _ => mem_keys_attrs⟩
  obtain ⟨number, hn, hs⟩ := Number.exists_scalar_eq_int hl hu
  exact ⟨number, hn, congrArg Node.scalar hs⟩

/-- A paragraph with the least and the greatest integer among its attributes. -/
theorem tree_keeps_value_paragraph :
    let json : Json := .array [.string "p", .object [("class", .array [.string "a", .bool true]),
      ("max", .number (.unsigned 0xFFFFFFFFFFFFFFFF)),
      ("min", .number (.negative (-0x8000000000000000) (by decide))), ("title", .null)], .null]
    json.WellFormed ∧ json.Flat ∧ ofNode? json.node = some json := by
  intro json
  have hw : json.WellFormed := by
    refine .array (List.forall_mem_cons.mpr ⟨.scalar rfl, List.forall_mem_cons.mpr ⟨?_, ?_⟩⟩)
    · refine .object (by decide) ?_
      simp only [List.forall_mem_cons]
      refine ⟨.array ?_, .scalar rfl, .scalar rfl, .null, nofun⟩
      exact List.forall_mem_cons.mpr ⟨.scalar rfl, List.forall_mem_singleton.mpr (.scalar rfl)⟩
    · exact List.forall_mem_singleton.mpr .null
  have hf : json.Flat := by
    refine .array (List.forall_mem_cons.mpr ⟨.scalar rfl, List.forall_mem_cons.mpr ⟨?_, ?_⟩⟩)
    · exact .object (by simp only [List.forall_mem_cons]; exact ⟨rfl, rfl, rfl, rfl, nofun⟩)
    · exact List.forall_mem_singleton.mpr .null
  exact ⟨hw, hf, tree_keeps_value.1 json hw hf⟩

end Markup.Json
