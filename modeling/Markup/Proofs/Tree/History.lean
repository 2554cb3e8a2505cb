import Mathlib.Data.Finset.Card
import Mathlib.Data.List.Induction
import Markup.Proofs.Tree.Lookup

set_option autoImplicit false

/-!
# Histories of maps

A map of attributes remembers of everything that was done to it the last value of every key that
is there, and the order in which these keys came in. This holds after every operation, however
many went before, and so it holds of every map that operations can build.
-/

namespace Markup.Attrs

/-- What happens to a map: an attribute is put in, or a key is dropped. -/
inductive Event where
  | put (entry : Attribute)
  | drop (key : String)

def Event.key : Event → String
  | put entry => entry.key
  | drop key => key

/-- The last event with a key puts it in, with a value. -/
def Latest (events : List Event) (key : String) (value : AttrValue) : Prop :=
  ∃ before after, events = before ++ .put ⟨key, value⟩ :: after ∧ ∀ event ∈ after, event.key ≠ key

/-- A key is put in at a moment at which it is absent, and is not dropped later. -/
def Arrives (events : List Event) (key : String) (moment : Nat) : Prop :=
  ∃ before value after, events = before ++ .put ⟨key, value⟩ :: after ∧ before.length = moment ∧
    (∀ older, ¬ Latest before key older) ∧ .drop key ∉ after

/-- A map that holds what a history has left: the latest values, in the order of arrival. -/
structure Follows (events : List Event) (map : Attrs) : Prop where
  value : ∀ key value, map.get? key = some value ↔ Latest events key value
  arrival : ∀ key ∈ map.keys, ∃ moment, Arrives events key moment
  order : map.keys.Pairwise fun a b => ∀ i j, Arrives events a i → Arrives events b j → i < j

/-! ## One more event -/

section Snoc

variable {events : List Event} {event : Event} {key : String} {value : AttrValue} {moment : Nat}

theorem snoc_eq_iff {before after : List Event} {other : Event} :
    events ++ [event] = before ++ other :: after ↔
      (after = [] ∧ events = before ∧ event = other) ∨
        ∃ more, after = more ++ [event] ∧ events = before ++ other :: more := by
  rcases List.eq_nil_or_concat' after with rfl | ⟨more, last, rfl⟩
  · simp
  · rw [← List.cons_append, ← List.append_assoc, List.append_singleton_inj]
    constructor
    · rintro ⟨rfl, rfl⟩
      exact Or.inr ⟨more, rfl, rfl⟩
    · rintro (⟨hn, -⟩ | ⟨_, he, rfl⟩)
      · simp at hn
      · obtain ⟨rfl, rfl⟩ := List.append_singleton_inj.mp he
        exact ⟨rfl, rfl⟩

theorem not_latest_nil : ¬ Latest [] key value := by
  rintro ⟨before, after, he, -⟩
  simp at he

theorem latest_snoc : Latest (events ++ [event]) key value ↔
    event = .put ⟨key, value⟩ ∨ event.key ≠ key ∧ Latest events key value := by
  constructor
  · rintro ⟨before, after, he, ha⟩
    rcases snoc_eq_iff.mp he with ⟨-, -, hp⟩ | ⟨more, rfl, hs⟩
    · exact Or.inl hp
    · refine Or.inr ⟨ha event (by simp), before, more, hs, fun other hm => ?_⟩
      exact ha other (List.mem_append_left _ hm)
  · rintro (rfl | ⟨hk, before, after, rfl, ha⟩)
    · exact ⟨events, [], rfl, nofun⟩
    · refine ⟨before, after ++ [event], by simp, fun other hm => ?_⟩
      rcases List.mem_append.mp hm with hm | hm
      · exact ha other hm
      · rw [List.mem_singleton.mp hm]
        exact hk

theorem not_arrives_nil : ¬ Arrives [] key moment := by
  rintro ⟨before, value, after, he, -⟩
  simp at he

theorem arrives_snoc : Arrives (events ++ [event]) key moment ↔
    (event ≠ .drop key ∧ Arrives events key moment) ∨
      (moment = events.length ∧ (∃ value, event = .put ⟨key, value⟩) ∧
        ∀ older, ¬ Latest events key older) := by
  constructor
  · rintro ⟨before, value, after, he, hl, hn, hd⟩
    rcases snoc_eq_iff.mp he with ⟨-, rfl, hp⟩ | ⟨more, rfl, hs⟩
    · exact Or.inr ⟨hl.symm, ⟨value, hp⟩, hn⟩
    · rw [List.mem_append, List.mem_singleton, not_or] at hd
      exact Or.inl ⟨Ne.symm hd.2, before, value, more, hs, hl, hn, hd.1⟩
  · rintro (⟨hd, before, value, after, rfl, hl, hn, ha⟩ | ⟨rfl, ⟨value, rfl⟩, hn⟩)
    · refine ⟨before, value, after ++ [event], by simp, hl, hn, ?_⟩
      rw [List.mem_append, List.mem_singleton, not_or]
      exact ⟨ha, Ne.symm hd⟩
    · exact ⟨events, value, [], rfl, rfl, hn, List.not_mem_nil⟩

theorem Arrives.lt_length (h : Arrives events key moment) : moment < events.length := by
  obtain ⟨before, value, after, rfl, rfl, -⟩ := h
  simp

theorem Arrives.latest (h : Arrives events key moment) : ∃ value, Latest events key value := by
  induction events using List.reverseRecOn with
  | nil => exact absurd h not_arrives_nil
  | append_singleton events event ih =>
    simp only [latest_snoc]
    rcases arrives_snoc.mp h with ⟨hd, ha⟩ | ⟨-, ⟨value, hp⟩, -⟩
    · obtain ⟨value, hv⟩ := ih ha
      by_cases hk : event.key = key
      · subst hk
        cases event with
        | put entry => exact ⟨entry.value, Or.inl rfl⟩
        | drop other => exact absurd rfl hd
      · exact ⟨value, Or.inr ⟨hk, hv⟩⟩
    · exact ⟨value, Or.inl hp⟩

end Snoc

/-! ## One more operation -/

namespace Follows

variable {events : List Event} {map : Attrs}

theorem empty : Follows [] .empty where
  value := by
    intro key value
    simp [not_latest_nil]
  arrival := nofun
  order := .nil

theorem mem_keys_iff (h : Follows events map) {key : String} :
    key ∈ map.keys ↔ ∃ value, Latest events key value := by
  simp only [Attrs.mem_keys_iff, h.value]

theorem arrives_put_iff (h : Follows events map) (entry : Attribute) {key : String} {moment : Nat} :
    Arrives (events ++ [.put entry]) key moment ↔
      Arrives events key moment ∨ moment = events.length ∧ entry.key = key ∧ key ∉ map.keys := by
  have hd : Event.put entry ≠ .drop key := nofun
  have hp : (∃ value, Event.put entry = .put ⟨key, value⟩) ↔ entry.key = key := by
    constructor
    · rintro ⟨value, he⟩
      cases he
      rfl
    · rintro rfl
      exact ⟨entry.value, rfl⟩
  rw [arrives_snoc, h.mem_keys_iff, not_exists, hp]
  simp only [ne_eq, hd, not_false_eq_true, true_and]

theorem insert (h : Follows events map) (entry : Attribute) :
    Follows (events ++ [.put entry]) (map.insert entry) where
  value := by
    intro key value
    rw [get?_insert, latest_snoc, ← h.value]
    obtain ⟨own, content⟩ := entry
    by_cases hk : own = key <;> simp [Event.key, hk]
  arrival := by
    intro key hm
    simp only [h.arrives_put_iff entry]
    by_cases hk : key ∈ map.keys
    · obtain ⟨moment, ha⟩ := h.arrival key hk
      exact ⟨moment, Or.inl ha⟩
    · have he : key = entry.key := by
        rw [keys_insert] at hm
        split at hm
        · exact absurd hm hk
        · simpa [hk] using hm
      exact ⟨events.length, Or.inr ⟨rfl, he.symm, hk⟩⟩
  order := by
    have old {key : String} (hm : key ∈ map.keys) {moment : Nat}
        (ha : Arrives (events ++ [.put entry]) key moment) : Arrives events key moment :=
      ((h.arrives_put_iff entry).mp ha).resolve_right fun hn => hn.2.2 hm
    have kept : map.keys.Pairwise fun a b => ∀ i j, Arrives (events ++ [.put entry]) a i →
        Arrives (events ++ [.put entry]) b j → i < j :=
      h.order.imp_of_mem fun ha hb hij i j hi hj => hij i j (old ha hi) (old hb hj)
    rw [keys_insert]
    split
    · exact kept
    · next hc =>
      rw [contains_iff] at hc
      refine List.pairwise_append.mpr ⟨kept, List.pairwise_singleton .., ?_⟩
      intro a ha b hb i j hi hj
      rw [List.mem_singleton] at hb
      subst hb
      -- the new key comes last, behind whatever had arrived before
      have hlt := (old ha hi).lt_length
      rcases (h.arrives_put_iff entry).mp hj with hj | ⟨rfl, -⟩
      · exact absurd (h.mem_keys_iff.mpr hj.latest) hc
      · exact hlt

theorem erase (h : Follows events map) (key : String) :
    Follows (events ++ [.drop key]) (map.erase key) := by
  have drop {other : String} {moment : Nat} (hk : other ≠ key) :
      Arrives (events ++ [.drop key]) other moment ↔ Arrives events other moment := by
    have hd : Event.drop key ≠ .drop other := fun he => hk (Event.drop.inj he).symm
    have hp : ¬ ∃ value, Event.drop key = .put ⟨other, value⟩ := nofun
    rw [arrives_snoc]
    simp only [ne_eq, hd, not_false_eq_true, true_and, hp, false_and, and_false, or_false]
  refine ⟨fun other value => ?_, fun other hm => ?_, ?_⟩
  · rw [get?_erase, latest_snoc, ← h.value]
    by_cases hk : other = key
    · simp [hk, Event.key]
    · simp [hk, Event.key, Ne.symm hk]
  · rw [keys_erase, List.mem_filter, decide_eq_true_iff] at hm
    simp only [drop hm.2]
    exact h.arrival other hm.1
  · rw [keys_erase]
    refine (h.order.filter _).imp_of_mem fun {a b} ha hb hij i j hi hj => ?_
    rw [List.mem_filter, decide_eq_true_iff] at ha hb
    exact hij i j ((drop ha.2).mp hi) ((drop hb.2).mp hj)

theorem insertMany (h : Follows events map) (entries : List Attribute) :
    Follows (events ++ entries.map .put) (map.insertMany entries) := by
  induction entries generalizing events map with
  | nil =>
    rw [List.map_nil, List.append_nil]
    exact h
  | cons entry rest ih =>
    rw [List.map_cons, List.append_cons]
    exact ih (h.insert entry)

end Follows

/-! ## Runs -/

/-- A way to build a map: what it starts from, and one operation after another. Setting a key in
    a chain is `set` as well. -/
inductive Building where
  | empty
  | ofList (attributes : List Attribute)
  | insert (before : Building) (entry : Attribute)
  | set (before : Building) (key : String) (value : AttrValue)
  | remove (before : Building) (key : String)
  | update (before other : Building)

namespace Building

def map : Building → Attrs
  | empty => .empty
  | ofList attributes => .ofList attributes
  | insert before entry => before.map.insert entry
  | set before key value => before.map.set key value
  | remove before key => (before.map.remove key).2
  | update before other => before.map.update other.map

def events : Building → List Event
  | empty => []
  | ofList attributes => attributes.map .put
  | insert before entry => before.events ++ [.put entry]
  | set before key value => before.events ++ [.put ⟨key, value⟩]
  | remove before key => before.events ++ [.drop key]
  | update before other => before.events ++ other.map.entries.map .put

theorem follows (building : Building) : Follows building.events building.map := by
  induction building with
  | empty => exact .empty
  | ofList attributes => exact Follows.empty.insertMany attributes
  | insert before entry ih => exact ih.insert entry
  | set before key value ih => exact ih.insert ⟨key, value⟩
  | remove before key ih => exact ih.erase key
  | update before other ih _ => exact ih.insertMany other.map.entries

/-- Whatever operations build a map, it is an ordered map: every key has the value put in last
    and stands where it arrived, removing and updating change what they name and nothing else, and
    the size is the number of keys that are there. -/
theorem map_ordered (building : Building) :
    building.map.keys.Nodup ∧
      Follows building.events building.map ∧
      (∀ key, building.map.get? key = none ↔ ∀ value, ¬ Latest building.events key value) ∧
      building.map.entries =
        building.map.keys.filterMap (fun key => (building.map.get? key).map (⟨key, ·⟩)) ∧
      (∀ entry, (building.map.insert entry).keys =
        if building.map.contains entry.key then building.map.keys
        else building.map.keys ++ [entry.key]) ∧
      (∀ key, (building.map.remove key).1 = building.map.get? key ∧
        (building.map.remove key).2.keys = building.map.keys.filter (· ≠ key) ∧
        ∀ other, (building.map.remove key).2.get? other =
          if other = key then none else building.map.get? other) ∧
      (∀ other : Building, (building.map.update other.map).keys =
          building.map.keys ++ other.map.keys.filter (!building.map.contains ·) ∧
        ∀ key, (building.map.update other.map).get? key =
          (other.map.get? key).or (building.map.get? key)) ∧
      ∃ present : Finset String,
        (∀ key, key ∈ present ↔ ∃ value, Latest building.events key value) ∧
          building.map.size = present.card := by
  have h := building.follows
  have hd : building.map.keys.Nodup := building.map.distinct
  refine ⟨hd, h, fun key => ?_, building.map.entries_eq,
    building.map.keys_insert, fun key => ?_, fun other => ?_, building.map.keys.toFinset,
    fun key => ?_, ?_⟩
  · rw [get?_eq_none_iff, h.mem_keys_iff, not_exists]
  · exact ⟨building.map.remove_fst key, building.map.keys_erase key, building.map.get?_erase key⟩
  · exact ⟨building.map.keys_update other.map, building.map.get?_update other.map⟩
  · rw [List.mem_toFinset, h.mem_keys_iff]
  · rw [List.toFinset_card_of_nodup hd, size, keys, List.length_map]

example : (map (.set (.remove (.ofList [.flag "a", .flag "b"]) "a") "a" .null)).keys =
    ["b", "a"] := by decide

end Building

end Markup.Attrs
