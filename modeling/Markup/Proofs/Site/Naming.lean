import Markup.Proofs.Text.Spans
import Markup.Site.Form

set_option autoImplicit false

/-!
# Names and identifiers of fields

A field is named and identified by its path: the groups around it and its own step. The brackets of
a name and the hyphens of an identifier show where the steps end, as long as no step holds any, so
the path can be told from either. Opening a group makes a new scope and leaves the ones there are.
Every field has the name and the identifier of its path, and a label points at the latter.
-/

namespace Markup

namespace Scope

/-! ## Names -/

def bracketed (steps : List String) : List Char :=
  steps.flatMap fun step => '[' :: (step.toList ++ [']'])

theorem toList_fieldName {scope : Scope} {field first : String} {rest : List String}
    (h : scope.path field = first :: rest) :
    (scope.fieldName field).toList = first.toList ++ bracketed rest := by
  unfold fieldName
  rw [h]
  simp [bracketed, String.toList_join, List.flatMap_map]

theorem bracketed_injective {steps others : List String}
    (hs : ∀ step ∈ steps, ']' ∉ step.toList) (ho : ∀ step ∈ others, ']' ∉ step.toList)
    (h : bracketed steps = bracketed others) : steps = others := by
  induction steps generalizing others with
  | nil =>
    cases others with
    | nil => rfl
    | cons other more => simp [bracketed] at h
  | cons step rest ih =>
    cases others with
    | nil => simp [bracketed] at h
    | cons other more =>
      rw [List.forall_mem_cons] at hs ho
      have hb : step.toList ++ ']' :: bracketed rest = other.toList ++ ']' :: bracketed more := by
        simpa [bracketed] using h
      -- the closing bracket ends both steps
      obtain ⟨he, hr⟩ := Text.append_inj_of_not_mem hs.1 (by simp) ho.1 (by simp) hb
      rw [String.toList_inj.mp he, ih hs.2 ho.2 (List.cons.inj hr).2]

theorem head?_bracketed {steps : List String} {c : Char} (h : c ∈ (bracketed steps).head?) :
    c = '[' := by
  cases steps with
  | nil => simp [bracketed] at h
  | cons step rest => simpa [bracketed, eq_comm] using h

def Unbracketed (steps : List String) : Prop :=
  ∀ step ∈ steps, '[' ∉ step.toList ∧ ']' ∉ step.toList

instance (steps : List String) : Decidable (Unbracketed steps) :=
  inferInstanceAs (Decidable (∀ step ∈ steps, '[' ∉ step.toList ∧ ']' ∉ step.toList))

theorem path_eq_of_fieldName {scope other : Scope} {field field' : String}
    (hp : Unbracketed (scope.path field)) (hp' : Unbracketed (other.path field'))
    (h : scope.fieldName field = other.fieldName field') :
    scope.path field = other.path field' := by
  obtain ⟨first, rest, hs⟩ := List.exists_cons_of_ne_nil (l := scope.path field) (by simp [path])
  obtain ⟨first', rest', ho⟩ := List.exists_cons_of_ne_nil (l := other.path field') (by simp [path])
  rw [Unbracketed, hs, List.forall_mem_cons] at hp
  rw [Unbracketed, ho, List.forall_mem_cons] at hp'
  have hl : first.toList ++ bracketed rest = first'.toList ++ bracketed rest' := by
    rw [← toList_fieldName hs, ← toList_fieldName ho, h]
  -- the first opening bracket ends both first steps
  obtain ⟨hf, hr⟩ := Text.append_inj_of_not_mem hp.1.1 (fun _ => head?_bracketed) hp'.1.1
    (fun _ => head?_bracketed) hl
  rw [hs, ho, String.toList_inj.mp hf,
    bracketed_injective (fun step hm => (hp.2 step hm).2) (fun step hm => (hp'.2 step hm).2) hr]

/-! ## Identifiers -/

def Unhyphenated (steps : List String) : Prop := ∀ step ∈ steps, '-' ∉ step.toList

instance (steps : List String) : Decidable (Unhyphenated steps) :=
  inferInstanceAs (Decidable (∀ step ∈ steps, '-' ∉ step.toList))

theorem splitOn_fieldId {scope : Scope} {field : String} (h : Unhyphenated (scope.path field)) :
    (scope.fieldId field).toList.splitOn '-' = (scope.path field).map String.toList := by
  rw [fieldId, String.toList_intercalate]
  apply List.splitOn_intercalate
  · simpa [Unhyphenated] using h
  · simp [path]

theorem path_eq_of_fieldId {scope other : Scope} {field field' : String}
    (hp : Unhyphenated (scope.path field)) (hp' : Unhyphenated (other.path field'))
    (h : scope.fieldId field = other.fieldId field') :
    scope.path field = other.path field' := by
  have hm : (scope.path field).map String.toList = (other.path field').map String.toList := by
    rw [← splitOn_fieldId hp, ← splitOn_fieldId hp', h]
  exact List.map_inj_right (fun _ _ => String.toList_inj.mp) |>.mp hm

/-! ## Groups -/

def within (context : Context) (names : List String) : Scope := names.foldl group { context }

theorem foldl_group (scope : Scope) (names : List String) :
    names.foldl group scope = { scope with groups := scope.groups ++ names } := by
  induction names generalizing scope with
  | nil => simp
  | cons name rest ih => simp [ih, group]

theorem path_within (context : Context) (names : List String) (field : String) :
    (within context names).path field = names ++ [field] := by
  simp [within, foldl_group, path]

theorem path_within_inj {context other : Context} {names more : List String} {field field' : String}
    (h : (within context names).path field = (within other more).path field') :
    names = more ∧ field = field' := by
  rw [path_within, path_within] at h
  obtain ⟨hn, hf⟩ := List.append_inj' h rfl
  exact ⟨hn, List.singleton_inj.mp hf⟩

structure Opening where
  outer : Nat
  name : String

def openGroup (scopes : List Scope) (opening : Opening) : List Scope :=
  scopes ++ (scopes[opening.outer]?.map (·.group opening.name)).toList

theorem prefix_openGroup (scopes : List Scope) (opening : Opening) :
    scopes <+: openGroup scopes opening :=
  List.prefix_append ..

theorem prefix_foldl_openGroup (scopes : List Scope) (openings : List Opening) :
    scopes <+: openings.foldl openGroup scopes := by
  induction openings generalizing scopes with
  | nil => exact List.prefix_refl _
  | cons opening rest ih => exact (prefix_openGroup scopes opening).trans (ih _)

theorem getElem?_foldl_openGroup {scopes : List Scope} {scope : Scope} {i : Nat}
    (h : scopes[i]? = some scope) (openings : List Opening) :
    (openings.foldl openGroup scopes)[i]? = some scope := by
  obtain ⟨hi, he⟩ := List.getElem?_eq_some_iff.mp h
  rw [List.prefix_iff_getElem?.mp (prefix_foldl_openGroup scopes openings) i hi, he]

end Scope

/-! ## Fields and labels -/

def Node.attribute? (node : Node) (key : String) : Option AttrValue :=
  node.attrs?.bind (·.get? key)

namespace Form

/-- The fields of a form, without attributes of the caller. -/
inductive Field (scope : Scope) (field : String) : Node → Prop where
  | hidden (value : AttrValue) : Field scope field (hiddenField scope none field value)
  | text (value : AttrValue) : Field scope field (textField scope none field value)
  | password (value : AttrValue) : Field scope field (passwordField scope none field value)
  | email (value : AttrValue) : Field scope field (emailField scope none field value)
  | checkBox (checked : Bool) (value? : Option String) :
    Field scope field (checkBox scope none field checked value?)
  | dropDown (options : List SelectOption) (selected? : Option String) :
    Field scope field (dropDown scope none field options selected?)
  | textArea (value? : Option String) : Field scope field (textArea scope none field value?)
  | fileUpload : Field scope field (fileUpload scope none field)

variable {scope : Scope} {field : String} {node : Node}

theorem Field.name_eq (h : Field scope field node) :
    node.attribute? "name" = some (.str (scope.fieldName field)) := by
  cases h <;> rfl

theorem Field.id_eq (h : Field scope field node) :
    node.attribute? "id" = some (.str (scope.fieldId field)) := by
  cases h <;> rfl

theorem for_label (scope : Scope) (field : String) (content : Node) :
    (label scope none field content).attribute? "for" = some (.str (scope.fieldId field)) :=
  rfl

end Form

open Scope in
/-- Names and identifiers tell paths apart, whatever contexts the scopes have, as long as the steps
    are free of what stands between them. Opening groups leaves the names and identifiers of every
    scope there is. All fields have those of their path, and a label has the identifier of the
    fields with its path. -/
theorem field_names_identify :
    (∀ (context other : Context) (names more : List String) (field field' : String),
      Unbracketed (names ++ [field]) → Unbracketed (more ++ [field']) →
        (within context names).fieldName field = (within other more).fieldName field' →
          names = more ∧ field = field') ∧
    (∀ (context other : Context) (names more : List String) (field field' : String),
      Unhyphenated (names ++ [field]) → Unhyphenated (more ++ [field']) →
        (within context names).fieldId field = (within other more).fieldId field' →
          names = more ∧ field = field') ∧
    (∀ (scopes : List Scope) (openings : List Opening) (i : Nat) (scope : Scope),
      scopes[i]? = some scope → ∃ kept, (openings.foldl openGroup scopes)[i]? = some kept ∧
        ∀ field, kept.fieldName field = scope.fieldName field ∧
          kept.fieldId field = scope.fieldId field) ∧
    ∀ (scope : Scope) (field : String) (node : Node), Form.Field scope field node →
      node.attribute? "name" = some (.str (scope.fieldName field)) ∧
        ∃ id, node.attribute? "id" = some (.str id) ∧
          ∀ content, (Form.label scope none field content).attribute? "for" = some (.str id) := by
  refine ⟨?names, ?ids, ?groups, ?fields⟩
  case names =>
    intro context other names more field field' hn hm h
    rw [← path_within context] at hn
    rw [← path_within other] at hm
    exact path_within_inj (path_eq_of_fieldName hn hm h)
  case ids =>
    intro context other names more field field' hn hm h
    rw [← path_within context] at hn
    rw [← path_within other] at hm
    exact path_within_inj (path_eq_of_fieldId hn hm h)
  case groups =>
    intro scopes openings i scope h
    exact ⟨scope, getElem?_foldl_openGroup h openings, fun _ => ⟨rfl, rfl⟩⟩
  case fields =>
    intro scope field node h
    exact ⟨h.name_eq, _, h.id_eq, fun content => Form.for_label scope field content⟩

open Scope in
/-- A nameless group shows in names and identifiers, groups opened in a scope leave it, and the
    label of a check box points at the box. -/
theorem field_names_identify_nameless :
    let user := within {} ["user"]
    let nameless := within {} ["user", ""]
    user.fieldName "agree" ≠ nameless.fieldName "agree" ∧
      user.fieldId "agree" ≠ nameless.fieldId "agree" ∧
      (∃ kept, ([⟨0, ""⟩, ⟨1, "home"⟩].foldl openGroup [user])[0]? = some kept ∧
        kept.fieldName "agree" = user.fieldName "agree") ∧
      ∃ id, (Form.checkBox nameless none "agree" true none).attribute? "id" = some (.str id) ∧
        (Form.label nameless none "agree" (.text "Agreed")).attribute? "for" = some (.str id) := by
  intro user nameless
  obtain ⟨names, ids, groups, fields⟩ := field_names_identify
  refine ⟨fun h => ?_, fun h => ?_, ?_, ?_⟩
  · exact absurd (names {} {} _ _ _ _ (by decide) (by decide) h).1 (by decide)
  · exact absurd (ids {} {} _ _ _ _ (by decide) (by decide) h).1 (by decide)
  · obtain ⟨kept, hk, hn⟩ := groups [user] [⟨0, ""⟩, ⟨1, "home"⟩] 0 user rfl
    exact ⟨kept, hk, (hn "agree").1⟩
  · obtain ⟨-, id, hi, hf⟩ := fields nameless "agree" _ (.checkBox true none)
    exact ⟨id, hi, hf _⟩

end Markup
