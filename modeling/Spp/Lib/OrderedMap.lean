import Mathlib.Data.List.Nodup
import Mathlib.Data.List.Perm.Subperm
import Mathlib.Order.Lattice

/-!
# Maps in the order of their keys

A finite map as the list of its entries, sorted by the keys, so that a loop over the entries is a
recursion over the list.
-/

/-- A finite map, as the list of its entries in the order of their keys. -/
structure OrderedMap (κ α : Type*) [LinearOrder κ] where
  entries : List (κ × α)
  sorted : entries.Pairwise fun entry other => entry.1 < other.1

namespace OrderedMap

variable {κ α : Type*} [LinearOrder κ] {map : OrderedMap κ α} {key other : κ} {value : α}

/-- The map without entries. -/
def empty : OrderedMap κ α := ⟨[], .nil⟩

/-- The value of a key. -/
def get (map : OrderedMap κ α) (key : κ) : Option α :=
  (map.entries.find? fun entry => entry.1 = key).map Prod.snd

/-- A key is removed. -/
def erase (map : OrderedMap κ α) (key : κ) : OrderedMap κ α where
  entries := map.entries.filter fun entry => entry.1 ≠ key
  sorted := map.sorted.filter _

/-- A key gets a value. -/
def set (map : OrderedMap κ α) (key : κ) (value : α) : OrderedMap κ α where
  entries := map.entries.filter (fun entry => entry.1 < key) ++
    (key, value) :: map.entries.filter fun entry => key < entry.1
  sorted := by
    have below : ∀ entry ∈ map.entries.filter (fun entry => entry.1 < key), entry.1 < key :=
      fun entry member => by simpa using (List.mem_filter.1 member).2
    have above : ∀ entry ∈ map.entries.filter (fun entry => key < entry.1), key < entry.1 :=
      fun entry member => by simpa using (List.mem_filter.1 member).2
    rw [List.pairwise_append, List.pairwise_cons]
    refine ⟨map.sorted.filter _, ⟨above, map.sorted.filter _⟩, fun entry low later member => ?_⟩
    rcases List.mem_cons.1 member with rfl | high
    · exact below entry low
    · exact (below entry low).trans (above later high)

/-- The first key with a value. -/
def keyOf [DecidableEq α] (map : OrderedMap κ α) (value : α) : Option κ :=
  (map.entries.find? fun entry => entry.2 = value).map Prod.fst

/-! ## Entries -/

variable {entry : κ × α} {map' : OrderedMap κ α}

theorem nodup (map : OrderedMap κ α) : map.entries.Nodup :=
  map.sorted.imp fun lt same => absurd (congrArg Prod.fst same) lt.ne

theorem value_unique {value' : α} (member : (key, value) ∈ map.entries)
    (member' : (key, value') ∈ map.entries) : value = value' := by
  have keys : (map.entries.map Prod.fst).Nodup :=
    List.pairwise_map.2 (map.sorted.imp fun lt => lt.ne)
  exact congrArg Prod.snd (List.inj_on_of_nodup_map keys member member' rfl)

theorem get_eq_some : map.get key = some value ↔ (key, value) ∈ map.entries := by
  rw [get, Option.map_eq_some_iff]
  constructor
  · rintro ⟨entry, found, rfl⟩
    have same : entry.1 = key := by simpa using List.find?_some found
    exact same ▸ List.mem_of_find?_eq_some found
  · intro member
    cases found : map.entries.find? fun entry => entry.1 = key with
    | none => exact absurd (List.find?_eq_none.1 found _ member) (by simp)
    | some entry =>
        have same : entry.1 = key := by simpa using List.find?_some found
        have at_key : (key, entry.2) ∈ map.entries := same ▸ List.mem_of_find?_eq_some found
        exact ⟨entry, rfl, value_unique at_key member⟩

theorem mem_set : entry ∈ (map.set key value).entries ↔
    entry = (key, value) ∨ entry ∈ map.entries ∧ entry.1 ≠ key := by
  simp only [set, List.mem_append, List.mem_cons, List.mem_filter, decide_eq_true_eq,
    ne_iff_lt_or_gt]
  tauto

theorem mem_erase : entry ∈ (map.erase key).entries ↔ entry ∈ map.entries ∧ entry.1 ≠ key := by
  simp only [erase, List.mem_filter, decide_eq_true_eq]

theorem get_set_self : (map.set key value).get key = some value :=
  get_eq_some.2 (mem_set.2 (Or.inl rfl))

theorem get_set_of_ne (ne : other ≠ key) : (map.set key value).get other = map.get other := by
  ext found
  rw [get_eq_some, get_eq_some, mem_set]
  simp [ne]

theorem get_erase_self : (map.erase key).get key = none := by
  rw [Option.eq_none_iff_forall_ne_some]
  exact fun found at_key => (mem_erase.1 (get_eq_some.1 at_key)).2 rfl

theorem get_erase_of_ne (ne : other ≠ key) : (map.erase key).get other = map.get other := by
  ext found
  rw [get_eq_some, get_eq_some, mem_erase]
  simp [ne]

theorem ext_get (same : ∀ key, map.get key = map'.get key) : map = map' := by
  have members : ∀ entry, entry ∈ map.entries ↔ entry ∈ map'.entries := by
    rintro ⟨key, value⟩
    rw [← get_eq_some, ← get_eq_some, same]
  have perm := (List.perm_ext_iff_of_nodup map.nodup map'.nodup).2 members
  have eq := perm.eq_of_pairwise (fun _ _ _ _ lt gt => absurd lt gt.not_gt) map.sorted map'.sorted
  cases map
  cases map'
  cases eq
  rfl

section Values

variable [DecidableEq α]

theorem get_of_keyOf (key_eq : map.keyOf value = some key) : map.get key = some value := by
  obtain ⟨entry, found, rfl⟩ := Option.map_eq_some_iff.1 key_eq
  have same : entry.2 = value := by simpa using List.find?_some found
  exact get_eq_some.2 (same ▸ List.mem_of_find?_eq_some found)

theorem keyOf_eq_none : map.keyOf value = none ↔ ∀ key, map.get key ≠ some value := by
  rw [keyOf, Option.map_eq_none_iff, List.find?_eq_none]
  constructor
  · intro none_has key at_key
    exact none_has _ (get_eq_some.1 at_key) (decide_eq_true rfl)
  · rintro none_has ⟨key, found⟩ member has
    exact none_has key (get_eq_some.2 (of_decide_eq_true has ▸ member))

/-- The number of keys with a value. -/
def count (map : OrderedMap κ α) (value : α) : Nat :=
  map.entries.countP fun entry => entry.2 = value

theorem count_eq_zero : map.count value = 0 ↔ ∀ key, map.get key ≠ some value := by
  rw [count, List.countP_eq_zero]
  constructor
  · exact fun none_has key at_key => none_has _ (get_eq_some.1 at_key) (decide_eq_true rfl)
  · rintro none_has ⟨key, found⟩ member has
    exact none_has key (get_eq_some.2 (of_decide_eq_true has ▸ member))

theorem count_erase {value' : α} (has : map.get key = some value) :
    map.count value' = (map.erase key).count value' + if value = value' then 1 else 0 := by
  have gone : (key, value) ∉ (map.erase key).entries := fun member => (mem_erase.1 member).2 rfl
  have perm : map.entries.Perm ((key, value) :: (map.erase key).entries) := by
    rw [List.perm_ext_iff_of_nodup map.nodup (List.nodup_cons.2 ⟨gone, nodup _⟩)]
    rintro ⟨other, found⟩
    rw [List.mem_cons, mem_erase]
    constructor
    · intro member
      by_cases same : other = key
      · subst same
        exact Or.inl (congrArg _ (value_unique member (get_eq_some.1 has)))
      · exact Or.inr ⟨member, same⟩
    · rintro (same | kept)
      · exact same ▸ get_eq_some.1 has
      · exact kept.1
  rw [count, perm.countP_eq, List.countP_cons]
  simp only [decide_eq_true_eq]
  rfl

theorem count_set {value' : α} (free : map.get key = none) :
    (map.set key value).count value' = map.count value' + if value = value' then 1 else 0 := by
  have same : (map.set key value).erase key = map := by
    refine ext_get fun other => ?_
    rcases eq_or_ne other key with rfl | ne
    · rw [get_erase_self, free]
    · rw [get_erase_of_ne ne, get_set_of_ne ne]
  rw [count_erase get_set_self, same]

theorem eq_of_count_le (part : ∀ key value, map.get key = some value → map'.get key = some value)
    (le : ∀ value, map'.count value ≤ map.count value) : map = map' := by
  refine ext_get fun key => Option.ext fun value => ⟨part key value, fun has => ?_⟩
  have subset : map.entries.filter (fun entry => entry.2 = value) ⊆
      map'.entries.filter fun entry => entry.2 = value := by
    intro entry member
    rw [List.mem_filter] at member ⊢
    exact ⟨get_eq_some.1 (part _ _ (get_eq_some.2 member.1)), member.2⟩
  have subperm := List.Nodup.subperm (map.nodup.filter _) subset
  have enough := le value
  rw [count, count, List.countP_eq_length_filter, List.countP_eq_length_filter] at enough
  have member : (key, value) ∈ map'.entries.filter fun entry => entry.2 = value :=
    List.mem_filter.2 ⟨get_eq_some.1 has, decide_eq_true rfl⟩
  have perm := subperm.perm_of_length_le enough
  exact get_eq_some.2 (List.mem_filter.1 (perm.mem_iff.2 member)).1

end Values

end OrderedMap
