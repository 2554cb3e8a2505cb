import Mathlib.Data.Rat.Lemmas
import Markup.Error
import Markup.Proofs.Number.Reading
import Markup.Proofs.Text.Quoting
import Markup.Proofs.Tree.Equivalence
import Markup.Proofs.Uri.RoundTrip

set_option autoImplicit false

/-!
# Literals

A message shows a node by its literal. Trees without sequences and floating-point numbers, whose
URIs have been read from texts, are told apart by their literals: the first character of a literal
says of what kind it is, and from there every part of it shows where it ends.
-/

namespace Markup

/-! ## Where a literal ends -/

/-- What can stand behind a literal: a comma or a closing bracket first, or nothing. -/
def Ends (rest : List Char) : Prop := ∀ c ∈ rest.head?, c = ',' ∨ c = ']' ∨ c = '\x7d'

theorem ends_nil : Ends [] := nofun

theorem ends_cons {c : Char} (h : c = ',' ∨ c = ']' ∨ c = '\x7d') (rest : List Char) :
    Ends (c :: rest) := by
  rintro _ ⟨⟩
  exact h

/-- Literals that are the same only for the same value, and with the same text behind them. -/
def ToldApart {α : Type} (literal : α → String) (a b : α) : Prop :=
  ∀ rest more, Ends rest → Ends more →
    (literal a).toList ++ rest = (literal b).toList ++ more → a = b ∧ rest = more

theorem ToldApart.eq {α : Type} {literal : α → String} {a b : α} (h : ToldApart literal a b)
    (hl : literal a = literal b) : a = b :=
  (h [] [] ends_nil ends_nil (by rw [hl])).1

theorem toList_append_append (first text last : String) (rest : List Char) :
    (first ++ text ++ last).toList ++ rest =
      first.toList ++ (text.toList ++ (last.toList ++ rest)) := by
  simp only [String.toList_append, List.append_assoc]

/-! ## Numbers -/

def isNumberChar (c : Char) : Bool := c.isDigit || c == '-'

theorem toString_eq_cons (n : ℤ) : ∃ c rest, (toString n).toList = c :: rest ∧
    ∀ d ∈ c :: rest, isNumberChar d = true := by
  have hd (k : ℕ) : ∃ c rest, k.repr.toList = c :: rest ∧
      ∀ d ∈ c :: rest, isNumberChar d = true := by
    obtain ⟨hn, hc⟩ := Numeral.areDigits_toDigits k
    obtain ⟨c, rest, he⟩ := List.exists_cons_of_ne_nil hn
    rw [Nat.toList_repr]
    exact ⟨c, rest, he, fun d hm => by simp [isNumberChar, hc d (he ▸ hm)]⟩
  rw [Int.toString_eq_repr, Int.repr_eq_if]
  split
  · exact hd _
  · obtain ⟨c, rest, he, hc⟩ := hd (-n).toNat
    rw [String.toList_append, he]
    exact ⟨'-', c :: rest, rfl, List.forall_mem_cons.mpr ⟨rfl, hc⟩⟩

theorem toString_injective {m n : ℤ} (h : toString m = toString n) : m = n := by
  have hr (e : ℤ) (he : e = m ∨ e = n) :
      Numeral.integer? (m.natAbs + n.natAbs + 1) (toString e).toList = some e :=
    Numeral.integer?_toString (by omega) (by omega)
  have hm := hr m (.inl rfl)
  rw [h, hr n (.inr rfl)] at hm
  exact (Option.some.inj hm).symm

theorem toString_append_inj {m n : ℤ} {rest more : List Char}
    (hr : ∀ c ∈ rest.head?, isNumberChar c = false) (hm : ∀ c ∈ more.head?, isNumberChar c = false)
    (h : (toString m).toList ++ rest = (toString n).toList ++ more) : m = n ∧ rest = more := by
  have hc (e : ℤ) : ∀ d ∈ (toString e).toList, isNumberChar d = true := by
    obtain ⟨c, tail, he, hd⟩ := toString_eq_cons e
    exact he ▸ hd
  obtain ⟨ht, he⟩ := Text.append_inj_of_stop (hc m) hr (hc n) hm h
  exact ⟨toString_injective (String.toList_inj.mp ht), he⟩

theorem toString_natCast (n : ℕ) : toString (n : ℤ) = toString n := by
  rw [Int.toString_eq_repr, Int.repr_eq_if, if_pos (Int.natCast_nonneg n), Int.toNat_natCast]
  rfl

theorem Ends.not_isNumberChar {rest : List Char} (h : Ends rest) :
    ∀ c ∈ rest.head?, isNumberChar c = false := by
  intro c hc
  rcases h c hc with rfl | rfl | rfl <;> decide

/-! ## Scalars -/

/-- The scalars that literals tell apart: no floating-point number, and of the URIs those that have
    been read from a text. -/
def Scalar.IsLegible : Scalar → Prop
  | .float _ => False
  | .uri value => ∃ text, value = Uri.parse text
  | .str _ | .int _ | .bool _ | .fraction _ => True

inductive Scalar.Kind where
  | text
  | number
  | truth
  | uri

def Scalar.kind : Scalar → Scalar.Kind
  | .str _ => .text
  | .int _ | .float _ | .fraction _ => .number
  | .bool _ => .truth
  | .uri _ => .uri

inductive LiteralKind where
  | nothing
  | scalar (kind : Scalar.Kind)
  | markup
  | list
  | map
  | other

def LiteralKind.ofChar (c : Char) : LiteralKind :=
  if isNumberChar c then .scalar .number
  else
    match c with
    | '"' => .scalar .text
    | 't' | 'f' => .scalar .truth
    | 'u' => .scalar .uri
    | 'n' => .nothing
    | 'r' => .markup
    | '[' => .list
    | '\x7b' => .map
    | _ => .other

def StartsAs (kind : LiteralKind) (text : List Char) : Prop :=
  ∃ c rest, text = c :: rest ∧ LiteralKind.ofChar c = kind

theorem StartsAs.append_append {kind : LiteralKind} {first : String}
    (h : StartsAs kind first.toList) (text last : String) :
    StartsAs kind (first ++ text ++ last).toList := by
  obtain ⟨c, rest, he, hk⟩ := h
  exact ⟨c, rest ++ (text.toList ++ last.toList), by simp [he], hk⟩

theorem StartsAs.unique {first second : LiteralKind} {text more rest next : List Char}
    (ht : StartsAs first text) (hm : StartsAs second more) (h : text ++ rest = more ++ next) :
    first = second := by
  obtain ⟨c, cs, rfl, rfl⟩ := ht
  obtain ⟨d, ds, rfl, rfl⟩ := hm
  rw [(List.cons.inj h).1]

theorem StartsAs.ne_cons {kind : LiteralKind} {text rest more : List Char} {c : Char}
    (ht : StartsAs kind text) (hk : kind ≠ LiteralKind.ofChar c) : text ++ rest ≠ c :: more := by
  intro h
  obtain ⟨d, ds, rfl, rfl⟩ := ht
  exact hk (congrArg LiteralKind.ofChar (List.cons.inj h).1)

theorem startsAs_quoted (text : String) : StartsAs (.scalar .text) (Text.quoted text).toList :=
  ⟨'"', _, String.toList_ofList, rfl⟩

theorem startsAs_toString (n : ℤ) : StartsAs (.scalar .number) (toString n).toList := by
  obtain ⟨c, rest, he, hc⟩ := toString_eq_cons n
  exact ⟨c, rest, he, if_pos (hc c List.mem_cons_self)⟩

namespace Scalar

theorem startsAs_literal {a : Scalar} (h : a.IsLegible) :
    StartsAs (.scalar a.kind) a.literal.toList := by
  cases a with
  | float => exact h.elim
  | str text => exact startsAs_quoted text
  | int value => exact startsAs_toString value
  | bool value =>
    cases value with
    | true => exact ⟨'t', _, rfl, rfl⟩
    | false => exact ⟨'f', _, rfl, rfl⟩
  | fraction value => exact (startsAs_toString _).append_append _ _
  | uri value => exact StartsAs.append_append ⟨'u', _, rfl, rfl⟩ _ _

theorem literal_fraction_append (value : ℚ) (rest : List Char) :
    (fraction value).literal.toList ++ rest =
      (toString value.num).toList ++ '/' :: ((toString (value.den : ℤ)).toList ++ rest) := by
  rw [literal, toList_append_append, toString_natCast]
  rfl

theorem int_ne_fraction {m : ℤ} {value : ℚ} {rest more : List Char} (hr : Ends rest) :
    (int m).literal.toList ++ rest ≠ (fraction value).literal.toList ++ more := by
  intro h
  rw [literal_fraction_append] at h
  obtain ⟨-, he⟩ := toString_append_inj hr.not_isNumberChar (by simp [isNumberChar]) h
  -- a slash goes on with the number, so it does not end one
  have hs := hr '/' (by rw [he]; rfl)
  exact absurd hs (by decide)

theorem truth_append_inj {value other : Bool} {rest more : List Char}
    (h : (bool value).literal.toList ++ rest = (bool other).literal.toList ++ more) :
    value = other ∧ rest = more := by
  cases value <;> cases other
  · exact ⟨rfl, List.append_cancel_left h⟩
  · exact absurd (List.cons.inj h).1 (by decide)
  · exact absurd (List.cons.inj h).1 (by decide)
  · exact ⟨rfl, List.append_cancel_left h⟩

theorem parse_text_of_isLegible {value : Uri} (h : (uri value).IsLegible) :
    Uri.parse value.text = value := by
  obtain ⟨text, rfl⟩ := h
  exact (Uri.parse_wellFormed text).parse_text

theorem toldApart {a b : Scalar} (ha : a.IsLegible) (hb : b.IsLegible) : ToldApart literal a b := by
  intro rest more hr hm h
  -- the kinds agree, and of the legible scalars only integers and fractions share one
  have hk := (startsAs_literal ha).unique (startsAs_literal hb) h
  cases a with
  | float => exact ha.elim
  | str text =>
    cases b with
    | str other =>
      obtain ⟨rfl, he⟩ := Text.quoted_append_inj h
      exact ⟨rfl, he⟩
    | int | float | bool | fraction | uri => cases hk
  | int value =>
    cases b with
    | int other =>
      obtain ⟨rfl, he⟩ := toString_append_inj hr.not_isNumberChar hm.not_isNumberChar h
      exact ⟨rfl, he⟩
    | fraction other => exact absurd h (int_ne_fraction hr)
    | float => exact hb.elim
    | str | bool | uri => cases hk
  | fraction value =>
    cases b with
    | fraction other =>
      rw [literal_fraction_append, literal_fraction_append] at h
      obtain ⟨hn, hd⟩ := toString_append_inj (by simp [isNumberChar]) (by simp [isNumberChar]) h
      obtain ⟨hd, he⟩ := toString_append_inj hr.not_isNumberChar hm.not_isNumberChar
        (List.cons.inj hd).2
      exact ⟨congrArg fraction (Rat.ext hn (Int.ofNat.inj hd)), he⟩
    | int other => exact absurd h.symm (int_ne_fraction hm)
    | float => exact hb.elim
    | str | bool | uri => cases hk
  | bool value =>
    cases b with
    | bool other =>
      obtain ⟨rfl, he⟩ := truth_append_inj h
      exact ⟨rfl, he⟩
    | str | int | float | fraction | uri => cases hk
  | uri value =>
    cases b with
    | uri other =>
      rw [literal, literal, toList_append_append, toList_append_append] at h
      obtain ⟨ht, he⟩ := Text.quoted_append_inj (List.append_cancel_left h)
      have hu : value = other := by
        rw [← parse_text_of_isLegible ha, ← parse_text_of_isLegible hb, ht]
      exact ⟨congrArg uri hu, (List.cons.inj he).2⟩
    | str | int | float | bool | fraction => cases hk

end Scalar

/-! ## Values between brackets -/

section Listed

variable {α : Type} {write : α → String} {as bs : List α} {close : Char} {rest more : List Char}

def following (write : α → String) (values : List α) : List Char :=
  values.flatMap fun value => ',' :: ' ' :: (write value).toList

theorem toList_intercalate_cons (write : α → String) (value : α) (values : List α) :
    (", ".intercalate ((value :: values).map write)).toList =
      (write value).toList ++ following write values := by
  rw [List.map_cons, Text.intercalate_cons_eq, String.toList_append, String.toList_join,
    List.map_map, List.flatMap_map, following]
  simp

theorem ends_following (hc : close = ']' ∨ close = '\x7d') (values : List α)
    (rest : List Char) : Ends (following write values ++ close :: rest) := by
  cases values with
  | nil => exact ends_cons (.inr hc) rest
  | cons value values => exact ends_cons (.inl rfl) _

theorem following_append_inj (hc : close = ']' ∨ close = '\x7d')
    (ht : ∀ a ∈ as, ∀ b ∈ bs, ToldApart write a b)
    (h : following write as ++ close :: rest = following write bs ++ close :: more) :
    as = bs ∧ rest = more := by
  have hcomma : close ≠ ',' := by rcases hc with rfl | rfl <;> decide
  induction as generalizing bs with
  | nil =>
    cases bs with
    | nil => exact ⟨rfl, (List.cons.inj h).2⟩
    | cons b bs => exact absurd (List.cons.inj h).1 hcomma
  | cons a as ih =>
    cases bs with
    | nil => exact absurd (List.cons.inj h).1.symm hcomma
    | cons b bs =>
      simp only [following, List.flatMap_cons, List.cons_append, List.append_assoc,
        List.cons.injEq, true_and] at h
      obtain ⟨rfl, he⟩ := ht a List.mem_cons_self b List.mem_cons_self _ _
        (ends_following hc as rest) (ends_following hc bs more) h
      obtain ⟨rfl, hr⟩ := ih (fun a ha b hb => ht a (List.mem_cons_of_mem _ ha) b
        (List.mem_cons_of_mem _ hb)) he
      exact ⟨rfl, hr⟩

/-- Literals with commas between them and a bracket at the end tell what values they are of, if
    none of them starts like the end of a list. -/
theorem listed_append_inj (hc : close = ']' ∨ close = '\x7d')
    (hs : ∀ value ∈ as ++ bs, ∃ kind, StartsAs kind (write value).toList ∧ kind ≠ .other)
    (ht : ∀ a ∈ as, ∀ b ∈ bs, ToldApart write a b)
    (h : (", ".intercalate (as.map write)).toList ++ close :: rest =
      (", ".intercalate (bs.map write)).toList ++ close :: more) :
    as = bs ∧ rest = more := by
  have hclose : LiteralKind.ofChar close = .other := by rcases hc with rfl | rfl <;> rfl
  have hne : ∀ value ∈ as ++ bs, ∀ text more : List Char,
      (write value).toList ++ text ≠ close :: more := by
    intro value hv text more
    obtain ⟨kind, hw, hk⟩ := hs value hv
    exact hw.ne_cons (hclose ▸ hk)
  cases as with
  | nil =>
    cases bs with
    | nil => exact ⟨rfl, (List.cons.inj h).2⟩
    | cons b bs =>
      rw [toList_intercalate_cons, List.append_assoc] at h
      exact absurd h.symm (hne b (by simp) _ _)
  | cons a as =>
    cases bs with
    | nil =>
      rw [toList_intercalate_cons, List.append_assoc] at h
      exact absurd h (hne a (by simp) _ _)
    | cons b bs =>
      -- with a comma in front, the first literal is one of those that follow
      rw [toList_intercalate_cons, toList_intercalate_cons] at h
      exact following_append_inj hc ht (congrArg (',' :: ' ' :: ·) h)

end Listed

/-! ## Attributes -/

namespace AttrValue

variable {a b : AttrValue}

def kind : AttrValue → LiteralKind
  | .null => .nothing
  | .scalar value => .scalar value.kind
  | .list _ => .list

theorem startsAs_literal (ha : ∀ value ∈ a.scalars, value.IsLegible) :
    StartsAs a.kind a.literal.toList := by
  cases a with
  | null => exact ⟨'n', _, rfl, rfl⟩
  | scalar value => exact Scalar.startsAs_literal (ha value (List.mem_singleton_self value))
  | list values => exact StartsAs.append_append ⟨'[', _, rfl, rfl⟩ _ _

theorem toldApart (ha : ∀ value ∈ a.scalars, value.IsLegible)
    (hb : ∀ value ∈ b.scalars, value.IsLegible) : ToldApart literal a b := by
  intro rest more hr hm h
  have hk := (startsAs_literal ha).unique (startsAs_literal hb) h
  cases a with
  | null =>
    cases b with
    | null => exact ⟨rfl, List.append_cancel_left h⟩
    | scalar | list => cases hk
  | scalar value =>
    cases b with
    | scalar other =>
      obtain ⟨rfl, he⟩ := Scalar.toldApart (ha _ (List.mem_singleton_self _))
        (hb _ (List.mem_singleton_self _)) rest more hr hm h
      exact ⟨rfl, he⟩
    | null | list => cases hk
  | list values =>
    cases b with
    | list others =>
      rw [literal, literal, toList_append_append, toList_append_append] at h
      have hs : ∀ value ∈ values ++ others, value.IsLegible :=
        List.forall_mem_append.mpr ⟨ha, hb⟩
      obtain ⟨rfl, he⟩ := listed_append_inj (.inl rfl)
        (fun value hv => ⟨_, Scalar.startsAs_literal (hs value hv), nofun⟩)
        (fun v hv w hw => Scalar.toldApart (ha v hv) (hb w hw)) (List.append_cancel_left h)
      exact ⟨rfl, he⟩
    | null | scalar => cases hk

end AttrValue

theorem Attribute.startsAs_literal (entry : Attribute) :
    StartsAs (.scalar .text) entry.literal.toList :=
  (startsAs_quoted entry.key).append_append _ _

theorem Attribute.toldApart {a b : Attribute} (ha : ∀ value ∈ a.value.scalars, value.IsLegible)
    (hb : ∀ value ∈ b.value.scalars, value.IsLegible) : ToldApart literal a b := by
  intro rest more hr hm h
  rw [literal, literal, toList_append_append, toList_append_append] at h
  obtain ⟨hkey, he⟩ := Text.quoted_append_inj h
  obtain ⟨hv, ht⟩ := AttrValue.toldApart ha hb rest more hr hm (List.append_cancel_left he)
  cases a
  cases b
  exact ⟨congrArg₂ Attribute.mk hkey hv, ht⟩

theorem Attrs.toldApart {a b : Attrs} (ha : ∀ value ∈ a.scalars, value.IsLegible)
    (hb : ∀ value ∈ b.scalars, value.IsLegible) : ToldApart literal a b := by
  intro rest more _ _ h
  rw [literal, literal, toList_append_append, toList_append_append] at h
  obtain ⟨he, ht⟩ := listed_append_inj (.inr rfl)
    (fun entry _ => ⟨.scalar .text, entry.startsAs_literal, nofun⟩)
    (fun v hv w hw => Attribute.toldApart
      (fun s hs => ha s (List.mem_flatMap.mpr ⟨v, hv, hs⟩))
      (fun s hs => hb s (List.mem_flatMap.mpr ⟨w, hw, hs⟩))) (List.append_cancel_left h)
  exact ⟨Attrs.ext he, ht⟩

/-! ## Nodes -/

namespace Node

/-- The nodes that literals tell apart: no sequence anywhere, and legible scalars only. -/
structure IsLegible (node : Node) : Prop where
  seqFree : node.SeqFree
  scalars : ∀ value ∈ node.scalars, value.IsLegible

theorem isLegible_list_iff {items : List Node} :
    (list items).IsLegible ↔ ∀ item ∈ items, item.IsLegible := by
  constructor
  · intro h item hi
    exact ⟨seqFree_list_iff.mp h.seqFree item hi, forall_mem_listScalars.mp h.scalars item hi⟩
  · intro h
    exact ⟨seqFree_list_iff.mpr fun item hi => (h item hi).seqFree,
      forall_mem_listScalars.mpr fun item hi => (h item hi).scalars⟩

def kind : Node → LiteralKind
  | .null => .nothing
  | .scalar value => .scalar value.kind
  | .raw _ => .markup
  | .seq _ => .other
  | .list _ => .list
  | .attrs _ => .map

theorem IsLegible.kind_ne_other {node : Node} (h : node.IsLegible) : node.kind ≠ .other := by
  cases node with
  | seq items => exact absurd h.seqFree (not_seqFree_seq items)
  | null | scalar | raw | list | attrs => nofun

theorem literals_eq_map (items : List Node) : literals items = items.map literal := by
  induction items with
  | nil => rfl
  | cons item items ih => rw [literals, ih, List.map_cons]

theorem IsLegible.startsAs_literal {node : Node} (h : node.IsLegible) :
    StartsAs node.kind node.literal.toList := by
  cases node with
  | null => exact ⟨'n', _, rfl, rfl⟩
  | scalar value => exact Scalar.startsAs_literal (h.scalars value (List.mem_singleton_self value))
  | raw markup => exact StartsAs.append_append ⟨'r', _, rfl, rfl⟩ _ _
  | seq items => exact absurd h.seqFree (not_seqFree_seq items)
  | list items => exact StartsAs.append_append ⟨'[', _, rfl, rfl⟩ _ _
  | attrs map => exact StartsAs.append_append ⟨'\x7b', _, rfl, rfl⟩ _ _

mutual

theorem toldApart (a : Node) {b : Node} (ha : a.IsLegible) (hb : b.IsLegible) :
    ToldApart literal a b := by
  intro rest more hr hm h
  -- by the kinds, the nodes have one constructor; the recursion is into the items of a list
  have hk := ha.startsAs_literal.unique hb.startsAs_literal h
  cases a with
  | null =>
    cases b with
    | null => exact ⟨rfl, List.append_cancel_left h⟩
    | scalar | raw | seq | list | attrs => cases hk
  | scalar value =>
    cases b with
    | scalar other =>
      obtain ⟨rfl, he⟩ := Scalar.toldApart (ha.scalars _ (List.mem_singleton_self _))
        (hb.scalars _ (List.mem_singleton_self _)) rest more hr hm h
      exact ⟨rfl, he⟩
    | null | raw | seq | list | attrs => cases hk
  | raw markup =>
    cases b with
    | raw other =>
      rw [literal, literal, toList_append_append, toList_append_append] at h
      obtain ⟨rfl, he⟩ := Text.quoted_append_inj (List.append_cancel_left h)
      exact ⟨rfl, (List.cons.inj he).2⟩
    | null | scalar | seq | list | attrs => cases hk
  | seq items => exact absurd ha.seqFree (not_seqFree_seq items)
  | list items =>
    cases b with
    | list others =>
      rw [literal, literal, literals_eq_map, literals_eq_map, toList_append_append,
        toList_append_append] at h
      rw [isLegible_list_iff] at ha hb
      have hs : ∀ item ∈ items ++ others, item.IsLegible := List.forall_mem_append.mpr ⟨ha, hb⟩
      obtain ⟨rfl, he⟩ := listed_append_inj (.inl rfl)
        (fun item hi => ⟨_, (hs item hi).startsAs_literal, (hs item hi).kind_ne_other⟩)
        (fun v hv w hw => toldApart_items items v hv (ha v hv) (hb w hw))
        (List.append_cancel_left h)
      exact ⟨rfl, he⟩
    | null | scalar | raw | seq | attrs => cases hk
  | attrs map =>
    cases b with
    | attrs other =>
      obtain ⟨rfl, he⟩ := Attrs.toldApart ha.scalars hb.scalars rest more hr hm h
      exact ⟨rfl, he⟩
    | null | scalar | raw | seq | list => cases hk

theorem toldApart_items : ∀ items : List Node, ∀ a ∈ items, ∀ {b : Node}, a.IsLegible →
    b.IsLegible → ToldApart literal a b
  | [] => nofun
  | item :: items => List.forall_mem_cons.mpr
      ⟨fun ha hb => toldApart item ha hb, toldApart_items items⟩

end

end Node

/-- Two nodes that literals tell apart have different literals unless they are the same node, down
    to the kinds of their scalars and the order of their attributes. So the messages about an
    element that is not well-formed and about a stray attribute map say which one it is. -/
theorem literal_identifies {a b : Node} (ha : a.IsLegible) (hb : b.IsLegible) :
    (a.literal = b.literal ↔ a = b) ∧
      ((Error.malformedElement a.literal).message = (Error.malformedElement b.literal).message →
        a = b) ∧
      ((Error.strayAttributes a.literal).message = (Error.strayAttributes b.literal).message →
        a = b) := by
  have hl (h : a.literal = b.literal) : a = b := (Node.toldApart a ha hb).eq h
  refine ⟨⟨hl, congrArg Node.literal⟩, fun h => hl ?_, fun h => hl ?_⟩
  · exact String.append_left_inj _ |>.mp h
  · exact String.append_right_inj _ |>.mp (String.append_left_inj _ |>.mp h)

/-- Two equal maps in a different order, with a fraction next to a text of the same characters. -/
theorem literal_identifies_order :
    let link : Attribute := ⟨"href", .uri (Uri.parse "/x?y")⟩
    let sizes : Attribute := ⟨"sizes", .list [.fraction (1 / 2), .str "1/2"]⟩
    let first := Node.attrs (.ofList [link, sizes])
    let second := Node.attrs (.ofList [sizes, link])
    first.IsLegible ∧ second.IsLegible ∧ (first == second) = true ∧
      first.literal ≠ second.literal := by
  intro link sizes first second
  have hu : (Scalar.uri (Uri.parse "/x?y")).IsLegible := ⟨_, rfl⟩
  have hl : ∀ value ∈ [Scalar.fraction (1 / 2), .str "1/2"], value.IsLegible := by
    simp [Scalar.IsLegible]
  have hf : first.IsLegible := ⟨.attrs _, List.forall_mem_cons.mpr ⟨hu, hl⟩⟩
  have hs : second.IsLegible :=
    ⟨.attrs _, List.forall_mem_append.mpr ⟨hl, List.forall_mem_singleton.mpr hu⟩⟩
  have he : (first == second) = true := by decide +kernel
  refine ⟨hf, hs, he, fun h => ?_⟩
  have hn : first ≠ second := by
    intro hn
    have hk := congrArg (List.map Attribute.key) (congrArg Attrs.entries (Node.attrs.inj hn))
    exact absurd hk (by decide)
  exact hn ((literal_identifies hf hs).1.mp h)

end Markup
