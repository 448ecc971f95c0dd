import Spp.MicroThread.HashListChains

/-!
# Runs of a hash table

Keys are inserted, looked for and removed.  The table is a finite set of keys as long as no key with
the hash value 0 is inserted again while it is the last of its chain: such a key looks like a new
one, it is put in front of a chain that it ends, and the chain becomes a circle.
-/

namespace Spp.HashList

open LinkedChain

/-- The virtual functions of the keys. -/
structure Keys (ι : Type) where
  value : ι → UInt32
  cmp : ι → ι → Int
  value_eq : ∀ item key, cmp item key = 0 → value item = value key

variable {ι : Type} [DecidableEq ι]

/-- The calls of the table. -/
inductive Op (ι : Type) where
  | insert (key : ι)
  | find (key : ι)
  | remove (key : ι)

/-- `HashCmp` with `key` gives 0. -/
def Keys.equal (keys : Keys ι) (key item : ι) : Bool := keys.cmp item key = 0

/-- A call that returns. -/
def Steps (keys : Keys ι) (before after : HashList ι) : Op ι → Prop
  | .insert key => after = (before.hashInsert keys.value (some key)).2
  | .find _ => after = before
  | .remove key => ∃ rounds,
      before.hashRemove rounds (keys.value key) (keys.equal key) = some after

/-- No key is inserted again that has the value 0 and is the last of its chain. -/
def Op.Safe (keys : Keys ι) (list : HashList ι) : Op ι → Prop
  | .insert key => list.Stored key → keys.value key = 0 → list.next key ≠ none
  | _ => True

/-- Runs from an empty table. -/
def Reaches (keys : Keys ι) (max : Int) (list : HashList ι) : Prop :=
  Relation.ReflTransGen (fun before after => ∃ op, Steps keys before after op) (new max) list

/-- Runs of safe calls in which `_count` fits an `int`. -/
def SafeReaches (keys : Keys ι) (max : Int) (list : HashList ι) : Prop :=
  Relation.ReflTransGen
    (fun before after => ∃ op, Op.Safe keys before op ∧ Steps keys before after op ∧
      after.count < 2147483648) (new max) list

/-- The table works, and the hash values in it are those of the keys. -/
structure Holds (keys : Keys ι) (list : HashList ι) (chains : Nat → List ι) : Prop where
  valid : Valid list chains
  hash_eq : ∀ idx key, key ∈ chains idx → list.hashValue key = keys.value key

section Run

variable {keys : Keys ι} {list after : HashList ι} {chains : Nat → List ι} {key : ι}

omit [DecidableEq ι] in
theorem Holds.mem_iff (holds : Holds keys list chains) (key item : ι) :
    (item ∈ chains (list.slot (keys.value key)) ∧ list.hashValue item = keys.value key ∧
      keys.equal key item = true) ↔ list.Stored item ∧ keys.cmp item key = 0 := by
  rw [holds.valid.stored_iff]
  constructor
  · rintro ⟨member, -, equal⟩
    exact ⟨⟨_, member⟩, by simpa [Keys.equal] using equal⟩
  · rintro ⟨⟨idx, member⟩, equal⟩
    have value_eq : list.hashValue item = keys.value key :=
      (holds.hash_eq idx item member).trans (keys.value_eq item key equal)
    exact ⟨holds.valid.mem_slot member value_eq, value_eq, by simpa [Keys.equal] using equal⟩

theorem Holds.insert_stored (holds : Holds keys list chains) (stored : list.Stored key)
    (safe : Op.Safe keys list (.insert key)) :
    list.hashInsert keys.value (some key) = (-2, list) := by
  refine hashInsert_of_used keys.value ?_
  obtain ⟨idx, member⟩ := (holds.valid.stored_iff key).1 stored
  rw [holds.hash_eq idx key member]
  by_cases zero : keys.value key = 0
  · exact Or.inr (safe stored zero)
  · exact Or.inl zero

theorem Holds.insert_new (holds : Holds keys list chains) (new_key : ¬ list.Stored key) :
    ∃ after later, list.hashInsert keys.value (some key) = (0, after) ∧ Holds keys after later ∧
      ∀ other, after.Stored other ↔ list.Stored other ∨ other = key := by
  have absent : ∀ idx, key ∉ chains idx := fun idx member =>
    new_key ((holds.valid.stored_iff key).2 ⟨idx, member⟩)
  obtain ⟨after, returns, valid, -, hash_eq⟩ := holds.valid.hashInsert keys.value absent
  have placed := holds.hash_eq
  refine ⟨after, _, returns, ⟨valid, ?_⟩, fun other => ?_⟩
  · simp only [hash_eq, Function.update_apply]
    grind
  · rw [valid.stored_iff, holds.valid.stored_iff]
    simp only [Function.update_apply]
    grind

omit [DecidableEq ι] in
theorem Holds.find (holds : Holds keys list chains) (key : ι) {rounds : Nat}
    (enough : (chains (list.slot (keys.value key))).length < rounds) :
    ∃ result, list.hashFind rounds (keys.value key) (keys.equal key) = some result ∧
      (∀ item, result = some item → list.Stored item ∧ keys.cmp item key = 0) ∧
      ((∃ item, list.Stored item ∧ keys.cmp item key = 0) → result ≠ none) := by
  refine ⟨_, holds.valid.hashFind _ _ enough, fun item found => ?_, ?_⟩
  · have passes := List.find?_some found
    exact (holds.mem_iff key item).1 ⟨List.mem_of_find?_eq_some found, by simpa using passes⟩
  · rintro ⟨item, is_equal⟩ not_found
    obtain ⟨member, passes⟩ := (holds.mem_iff key item).2 is_equal
    have := List.find?_eq_none.1 not_found item member
    exact this (by simpa using passes)

theorem Holds.remove (holds : Holds keys list chains) (key : ι) :
    ∃ after later, (∀ rounds, (chains (list.slot (keys.value key))).length < rounds →
        list.hashRemove rounds (keys.value key) (keys.equal key) = some after) ∧
      Holds keys after later ∧
      ((∃ item, (list.Stored item ∧ keys.cmp item key = 0) ∧ after.count = list.count - 1 ∧
          ∀ other, after.Stored other ↔ list.Stored other ∧ other ≠ item) ∨
        (∀ item, list.Stored item → keys.cmp item key ≠ 0) ∧ after = list) := by
  let hash := keys.value key
  cases found : (chains (list.slot hash)).find?
      fun item => list.hashValue item = hash ∧ keys.equal key item with
  | none =>
      have none_equal : ∀ item ∈ chains (list.slot hash),
          ¬ (list.hashValue item = hash ∧ keys.equal key item = true) := fun item member passes =>
        List.find?_eq_none.1 found item member (by simpa using passes)
      refine ⟨list, chains, fun rounds enough => holds.valid.hashRemove_of_none none_equal enough,
        holds, Or.inr ⟨fun item stored is_equal => ?_, rfl⟩⟩
      obtain ⟨member, passes⟩ := (holds.mem_iff key item).2 ⟨stored, is_equal⟩
      exact none_equal item member passes
  | some item =>
      obtain ⟨passes, before, rest, chain_eq, none_equal⟩ := List.find?_eq_some_iff_append.1 found
      obtain ⟨hash_eq, is_equal⟩ : list.hashValue item = hash ∧ keys.equal key item = true := by
        simpa using passes
      have valid := holds.valid.taken chain_eq
      have member_iff := holds.valid.mem_taken_iff chain_eq
      have stored_item : list.Stored item :=
        (holds.valid.stored_iff item).2 ⟨list.slot hash, by simp [chain_eq]⟩
      refine ⟨_, _, fun rounds enough => holds.valid.hashRemove chain_eq hash_eq is_equal
        (fun other member passes => by simpa [passes] using none_equal other member) enough,
        ⟨valid, ?_⟩,
        Or.inl ⟨item, ⟨stored_item, by simpa [Keys.equal] using is_equal⟩, taken_count _, ?_⟩⟩
      · intro idx other member
        obtain ⟨is_in, not_item⟩ := (member_iff idx other).1 member
        rw [taken_hashValue, Function.update_of_ne not_item]
        exact holds.hash_eq idx other is_in
      · intro other
        rw [valid.stored_iff, holds.valid.stored_iff]
        simp only [member_iff, exists_and_right]

theorem Holds.step (holds : Holds keys list chains) {op : Op ι} (safe : Op.Safe keys list op)
    (steps : Steps keys list after op) : ∃ later, Holds keys after later := by
  cases op with
  | insert key =>
      cases (show after = (list.hashInsert keys.value (some key)).2 from steps)
      by_cases stored : list.Stored key
      · rw [holds.insert_stored stored safe]
        exact ⟨chains, holds⟩
      · obtain ⟨after, later, returns, still, -⟩ := holds.insert_new stored
        rw [returns]
        exact ⟨later, still⟩
  | find key =>
      cases (show after = list from steps)
      exact ⟨chains, holds⟩
  | remove key =>
      obtain ⟨rounds, returns⟩ := steps
      obtain ⟨result, later, returns_always, still, -⟩ := holds.remove key
      let enough := rounds + (chains (list.slot (keys.value key))).length + 1
      have more := hashRemove_mono (show rounds ≤ enough by omega) returns
      rw [returns_always enough (by omega)] at more
      cases more
      exact ⟨later, still⟩

theorem SafeReaches.holds {max : Int} (reaches : SafeReaches keys max list) :
    ∃ chains, Holds keys list chains := by
  induction reaches with
  | refl => exact ⟨fun _ => [], valid_new max, fun _ _ member => absurd member List.not_mem_nil⟩
  | tail _ steps induction =>
      obtain ⟨chains, holds⟩ := induction
      obtain ⟨op, safe, steps, -⟩ := steps
      exact holds.step safe steps

/-! ## The table as a set -/

/-- The table is a finite set of keys, and its calls are those of a set. -/
structure IsSet (keys : Keys ι) (list : HashList ι) : Prop where
  chains : ∃ chains : Nat → List ι,
    (∀ idx < list.max, Chain list.next (list.buckets idx) (chains idx)) ∧
      (∀ key, ∑ idx ∈ Finset.range list.max, (chains idx).count key ≤ 1) ∧
      list.count = ∑ idx ∈ Finset.range list.max, (chains idx).length
  insert_stored : ∀ key, list.Stored key → Op.Safe keys list (.insert key) →
    list.hashInsert keys.value (some key) = (-2, list)
  insert_new : ∀ key, ¬ list.Stored key → list.count < 2147483647 → ∃ after,
    list.hashInsert keys.value (some key) = (0, after) ∧
      ∀ other, after.Stored other ↔ list.Stored other ∨ other = key
  find : ∀ key, ∃ rounds result,
    list.hashFind rounds (keys.value key) (keys.equal key) = some result ∧
      (∀ item, result = some item → list.Stored item ∧ keys.cmp item key = 0) ∧
      ((∃ item, list.Stored item ∧ keys.cmp item key = 0) → result ≠ none)
  remove : ∀ key, ∃ rounds after,
    list.hashRemove rounds (keys.value key) (keys.equal key) = some after ∧
      ((∃ item, (list.Stored item ∧ keys.cmp item key = 0) ∧ after.count = list.count - 1 ∧
          ∀ other, after.Stored other ↔ list.Stored other ∧ other ≠ item) ∨
        (∀ item, list.Stored item → keys.cmp item key ≠ 0) ∧ after = list)

theorem Valid.occurs_le_one (valid : Valid list chains) (key : ι) :
    ∑ idx ∈ Finset.range list.max, (chains idx).count key ≤ 1 := by
  by_cases stored : ∃ idx, key ∈ chains idx
  · obtain ⟨idx, member⟩ := stored
    rw [Finset.sum_eq_single idx]
    · exact List.nodup_iff_count_le_one.1 (valid.nodup idx) key
    · intro other _ is_other
      exact List.count_eq_zero.2 fun other_member => is_other (valid.idx_eq other_member member)
    · intro outside
      rw [valid.outside idx (by simpa using outside)]
      simp
  · rw [Finset.sum_eq_zero]
    · exact Nat.zero_le 1
    · exact fun idx _ => List.count_eq_zero.2 fun member => stored ⟨idx, member⟩

/-- In a run whose calls are safe, the table is a finite set of keys. -/
theorem safeReaches_isSet {max : Int} (reaches : SafeReaches keys max list) : IsSet keys list := by
  obtain ⟨chains, holds⟩ := reaches.holds
  refine ⟨⟨chains, holds.valid.chain, holds.valid.occurs_le_one, ?_⟩,
    fun key => holds.insert_stored, fun key new_key _ => ?_,
    fun key => ⟨_, holds.find key (Nat.lt_succ_self _)⟩, fun key => ?_⟩
  · have count_eq := holds.valid.count_eq
    rw [total, Nat.cast_sum] at count_eq
    rw [count_eq, Nat.cast_sum]
  · obtain ⟨after, -, returns, -, stored_iff⟩ := holds.insert_new new_key
    exact ⟨after, returns, stored_iff⟩
  · obtain ⟨after, -, returns, -, removes⟩ := holds.remove key
    exact ⟨_, after, returns _ (Nat.lt_succ_self _), removes⟩

end Run

/-- Two keys of one bucket of three, the one with the value 0. -/
def zeroKeys : Keys Bool where
  value := fun key => if key then 0 else 3
  cmp := fun item key => if item = key then 0 else 1
  value_eq := by decide

/-- Both keys are inserted. -/
def bothKeys : HashList Bool :=
  (((new 3).hashInsert zeroKeys.value (some true)).2.hashInsert zeroKeys.value (some false)).2

/-- The key behind the other one is removed again. -/
def firstRemoved : HashList Bool :=
  (bothKeys.hashRemove 3 (zeroKeys.value true) (zeroKeys.equal true)).get (by decide +kernel)

theorem safeReaches_isSet_firstRemoved :
    SafeReaches zeroKeys 3 firstRemoved ∧ IsSet zeroKeys firstRemoved ∧ firstRemoved.count = 1 := by
  have first : SafeReaches zeroKeys 3 ((new 3).hashInsert zeroKeys.value (some true)).2 := by
    refine .single ⟨.insert true, fun stored => ?_, rfl, by decide⟩
    obtain ⟨_, _, _, found, _⟩ := stored
    cases found
  have second : SafeReaches zeroKeys 3 bothKeys :=
    first.tail ⟨.insert false, fun _ zero => absurd zero (by decide), rfl, by decide⟩
  have third : SafeReaches zeroKeys 3 firstRemoved :=
    second.tail ⟨.remove true, trivial, ⟨3, (Option.some_get _).symm⟩, by decide +kernel⟩
  exact ⟨third, safeReaches_isSet third, by decide +kernel⟩

/-- The table with the key whose value is 0. -/
def zeroKey : HashList Bool := ((new 3).hashInsert zeroKeys.value (some true)).2

/-- It is inserted twice. -/
def zeroKeyTwice : HashList Bool := (zeroKey.hashInsert zeroKeys.value (some true)).2

/-- The key with the value 0 is inserted twice; then the search for another key never ends. -/
theorem reaches_circle : Reaches zeroKeys 3 zeroKey ∧ zeroKey.Stored true ∧
    zeroKey.hashInsert zeroKeys.value (some true) = (0, zeroKeyTwice) ∧
      zeroKeyTwice.count = 2 ∧ zeroKeyTwice.next true = some true ∧
      ∀ rounds, zeroKeyTwice.hashFind rounds (zeroKeys.value false) (zeroKeys.equal false) =
        none := by
  have stored : zeroKey.Stored true :=
    ⟨0, by decide +kernel, true, by decide +kernel, Relation.ReflTransGen.refl⟩
  have circle : zeroKeyTwice.next true = some true := by decide
  have first : zeroKeyTwice.buckets (zeroKeyTwice.slot (zeroKeys.value false)) = some true := by
    decide +kernel
  refine ⟨Relation.ReflTransGen.single ⟨.insert true, rfl⟩, stored, rfl, by decide, circle,
    fun rounds => ?_⟩
  rw [hashFind, first]
  exact walk_of_circle circle (by decide) rounds

end Spp.HashList
