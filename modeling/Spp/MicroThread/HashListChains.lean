import Spp.MicroThread.HashList

/-!
# The chains of a hash table

In a table that works, the keys of each bucket are a chain, every key is in one chain at most, the
one of its `_hash_value`, and the keys in no chain look new.
-/

namespace Spp.HashList

open LinkedChain

variable {ι : Type} [DecidableEq ι]

/-- The number of elements. -/
def total (max : Nat) (chains : Nat → List ι) : Nat :=
  ∑ idx ∈ Finset.range max, (chains idx).length

/-- The buckets, the links and the hash values agree with the chains. -/
structure Valid (list : HashList ι) (chains : Nat → List ι) : Prop where
  max_pos : 0 < list.max
  chain : ∀ idx < list.max, Chain list.next (list.buckets idx) (chains idx)
  outside : ∀ idx, list.max ≤ idx → chains idx = []
  nodup : ∀ idx, (chains idx).Nodup
  placed : ∀ idx key, key ∈ chains idx → idx = list.slot (list.hashValue key)
  clear : ∀ key, (∀ idx, key ∉ chains idx) → list.hashValue key = 0 ∧ list.next key = none
  count_eq : list.count = total list.max chains

section Chains

variable {list after : HashList ι} {chains : Nat → List ι} {key item : ι} {hash : UInt32}
  {equal : ι → Bool}

omit [DecidableEq ι] in
theorem total_update {max idx : Nat} (idx_lt : idx < max) (chains : Nat → List ι) (nodes : List ι) :
    total max (Function.update chains idx nodes) + (chains idx).length =
      total max chains + nodes.length := by
  have member : idx ∈ Finset.range max := Finset.mem_range.2 idx_lt
  unfold total
  rw [← Finset.add_sum_erase _ _ member,
    ← Finset.add_sum_erase (Finset.range max) (fun idx => (chains idx).length) member,
    Function.update_self]
  have others : ∑ other ∈ (Finset.range max).erase idx,
    (Function.update chains idx nodes other).length =
      ∑ other ∈ (Finset.range max).erase idx, (chains other).length := by
    refine Finset.sum_congr rfl fun other is_other => ?_
    rw [Function.update_of_ne (Finset.ne_of_mem_erase is_other)]
  omega

omit [DecidableEq ι] in
theorem Valid.slot_lt (valid : Valid list chains) (hash : UInt32) : list.slot hash < list.max :=
  Nat.mod_lt _ valid.max_pos

omit [DecidableEq ι] in
theorem Valid.stored_iff (valid : Valid list chains) (key : ι) :
    list.Stored key ↔ ∃ idx, key ∈ chains idx := by
  constructor
  · rintro ⟨idx, idx_lt, leads⟩
    exact ⟨idx, ((valid.chain idx idx_lt).mem_iff key).2 leads⟩
  · rintro ⟨idx, member⟩
    by_cases idx_lt : idx < list.max
    · exact ⟨idx, idx_lt, ((valid.chain idx idx_lt).mem_iff key).1 member⟩
    · rw [valid.outside idx (not_lt.1 idx_lt)] at member
      cases member

omit [DecidableEq ι] in
theorem valid_new (max : Int) : Valid (new max : HashList ι) fun _ => [] where
  max_pos := new_max_pos max
  chain := fun _ _ => rfl
  outside := fun _ _ => rfl
  nodup := fun _ => List.nodup_nil
  placed := fun _ _ member => absurd member List.not_mem_nil
  clear := fun _ _ => ⟨rfl, rfl⟩
  count_eq := by simp [total, new]

/-! ## Insertion -/

theorem hashInsert_of_used (value : ι → UInt32)
    (used : list.hashValue key ≠ 0 ∨ list.next key ≠ none) :
    list.hashInsert value (some key) = (-2, list) :=
  if_pos used

theorem Valid.hashInsert (valid : Valid list chains) (value : ι → UInt32)
    (new_key : ∀ idx, key ∉ chains idx) :
    ∃ after, list.hashInsert value (some key) = (0, after) ∧
      Valid after (Function.update chains (list.slot (value key))
        (key :: chains (list.slot (value key)))) ∧
      after.max = list.max ∧
      after.hashValue = Function.update list.hashValue key (value key) := by
  obtain ⟨hash_zero, next_none⟩ := valid.clear key new_key
  refine ⟨_, if_neg (by simp [hash_zero, next_none]), ?_, rfl, rfl⟩
  refine ⟨valid.max_pos, fun idx idx_lt => ?_, fun idx outside => ?_, fun idx => ?_,
    fun idx other member => ?_, fun other absent => ?_, ?_⟩
  · show Chain (Function.update list.next key _) (Function.update list.buckets _ _ idx) _
    by_cases same : idx = list.slot (value key)
    · subst same
      rw [Function.update_self, Function.update_self]
      exact (valid.chain _ idx_lt).push (new_key _)
    · rw [Function.update_of_ne same, Function.update_of_ne same]
      exact (valid.chain idx idx_lt).update (new_key idx)
  · have inside := valid.slot_lt (value key)
    rw [Function.update_of_ne (by dsimp only at outside; omega)]
    exact valid.outside idx outside
  · rw [Function.update_apply]
    split
    · exact List.nodup_cons.2 ⟨new_key _, valid.nodup _⟩
    · exact valid.nodup idx
  · have placed := valid.placed idx other
    have absent := new_key idx
    simp only [slot, Function.update_apply] at placed absent member ⊢
    grind
  · have clear := valid.clear other
    have listed := absent (list.slot (value key))
    simp only [Function.update_apply] at absent listed ⊢
    grind
  · have sum := total_update (valid.slot_lt (value key)) chains
      (key :: chains (list.slot (value key)))
    rw [List.length_cons] at sum
    have before := valid.count_eq
    show list.count + 1 = (total list.max _ : Int)
    omega

/-! ## Search -/

omit [DecidableEq ι] in
theorem Valid.hashFind (valid : Valid list chains) (hash : UInt32) (equal : ι → Bool) {rounds : Nat}
    (enough : (chains (list.slot hash)).length < rounds) :
    list.hashFind rounds hash equal =
      some ((chains (list.slot hash)).find? fun item => list.hashValue item = hash ∧ equal item) :=
  walk_of_chain (valid.chain _ (valid.slot_lt hash)) enough

/-! ## Removal -/

omit [DecidableEq ι] in
theorem Valid.mem_slot (valid : Valid list chains) {idx : Nat} (member : item ∈ chains idx)
    (hash_eq : list.hashValue item = hash) : item ∈ chains (list.slot hash) := by
  rwa [← hash_eq, ← valid.placed idx item member]

theorem Valid.hashRemove_of_none (valid : Valid list chains)
    (none_equal : ∀ item ∈ chains (list.slot hash),
      ¬ (list.hashValue item = hash ∧ equal item = true)) {rounds : Nat}
    (enough : (chains (list.slot hash)).length < rounds) :
    list.hashRemove rounds hash equal = some list := by
  have walked : walkBehind list.next (fun item =>
    list.hashValue item = hash ∧ equal item) rounds none
      (list.buckets (list.slot hash)) = some none :=
    walkBehind_of_none (valid.chain _ (valid.slot_lt hash))
      (fun item member => by simpa using none_equal item member) enough none
  rw [HashList.hashRemove]
  simp only [walked, Option.bind_eq_bind, Option.bind_some]
  rfl

theorem hashRemove_mono {rounds more : Nat} (le : rounds ≤ more)
    (returns : list.hashRemove rounds hash equal = some after) :
    list.hashRemove more hash equal = some after := by
  rw [HashList.hashRemove] at returns ⊢
  obtain ⟨found, walked, rest⟩ := Option.bind_eq_some_iff.1 returns
  rw [walkBehind_mono le walked]
  exact rest

/-- An element is taken out. -/
def taken (list : HashList ι) (hash : UInt32) (prev : Option ι) (item : ι) : HashList ι :=
  match prev with
  | none =>
      { list with
        buckets := Function.update list.buckets (list.slot hash) (list.next item)
        hashValue := Function.update list.hashValue item 0
        next := Function.update list.next item none
        count := list.count - 1 }
  | some prev =>
      { list with
        hashValue := Function.update list.hashValue item 0
        next := Function.update (Function.update list.next prev (list.next item)) item none
        count := list.count - 1 }

theorem taken_max (prev : Option ι) : (list.taken hash prev item).max = list.max := by
  cases prev <;> rfl

theorem taken_hashValue (prev : Option ι) :
    (list.taken hash prev item).hashValue = Function.update list.hashValue item 0 := by
  cases prev <;> rfl

theorem taken_count (prev : Option ι) : (list.taken hash prev item).count = list.count - 1 := by
  cases prev <;> rfl

omit [DecidableEq ι] in
theorem Valid.idx_eq (valid : Valid list chains) {idx other : Nat} (member : item ∈ chains idx)
    (other_member : item ∈ chains other) : idx = other :=
  (valid.placed idx item member).trans (valid.placed other item other_member).symm

omit [DecidableEq ι] in
theorem Valid.mem_taken_iff {before rest : List ι} (valid : Valid list chains)
    (chain_eq : chains (list.slot hash) = before ++ item :: rest) (idx : Nat) (other : ι) :
    other ∈ Function.update chains (list.slot hash) (before ++ rest) idx ↔
      other ∈ chains idx ∧ other ≠ item := by
  have nodup := valid.nodup (list.slot hash)
  rw [chain_eq] at nodup
  have item_out : item ∉ before ++ rest := (List.nodup_middle.1 nodup).notMem
  rw [Function.update_apply]
  split
  · subst idx
    rw [chain_eq]
    grind
  · have placed := valid.placed idx item
    have listed := valid.placed (list.slot hash) item (by simp [chain_eq])
    grind

theorem Valid.taken {before rest : List ι} (valid : Valid list chains)
    (chain_eq : chains (list.slot hash) = before ++ item :: rest) :
    Valid (list.taken hash before.getLast? item)
      (Function.update chains (list.slot hash) (before ++ rest)) := by
  have item_mem : item ∈ chains (list.slot hash) := by simp [chain_eq]
  have nodup := valid.nodup (list.slot hash)
  rw [chain_eq] at nodup
  have chain := valid.chain _ (valid.slot_lt hash)
  rw [chain_eq] at chain
  obtain ⟨unlink_later, unlink_first⟩ := chain.unlink nodup
  have member_iff := valid.mem_taken_iff chain_eq
  refine ⟨?_, fun idx idx_lt => ?_, fun idx outside => ?_, fun idx => ?_, fun idx other member =>
    ?_,
    fun other absent => ?_, ?_⟩
  · rw [taken_max]
    exact valid.max_pos
  · rw [taken_max] at idx_lt
    by_cases same : idx = list.slot hash
    · subst same
      rw [Function.update_self]
      cases before_eq : before.getLast? with
      | none =>
          obtain rfl := List.getLast?_eq_none_iff.1 before_eq
          show Chain (Function.update list.next item none) (Function.update list.buckets _ _ _) _
          rw [Function.update_self]
          exact unlink_first rfl
      | some prev => exact unlink_later prev before_eq
    · rw [Function.update_of_ne same]
      have still := valid.chain idx idx_lt
      have item_not : item ∉ chains idx := fun member =>
        same (valid.idx_eq member item_mem)
      cases before_eq : before.getLast? with
      | none =>
          show Chain (Function.update list.next item none) (Function.update list.buckets _ _ idx) _
          rw [Function.update_of_ne same]
          exact still.update item_not
      | some prev =>
          have prev_mem : prev ∈ chains (list.slot hash) := by
            rw [chain_eq]
            exact List.mem_append_left _ (List.mem_of_getLast? before_eq)
          have prev_not : prev ∉ chains idx := fun member =>
            same (valid.idx_eq member prev_mem)
          exact (still.update prev_not).update item_not
  · rw [taken_max] at outside
    have other : idx ≠ list.slot hash := by
      rintro rfl
      exact absurd (valid.slot_lt hash) (not_lt.2 outside)
    rw [Function.update_of_ne other]
    exact valid.outside idx outside
  · rw [Function.update_apply]
    split
    · exact (List.nodup_middle.1 nodup).of_cons
    · exact valid.nodup idx
  · obtain ⟨is_in, not_item⟩ := (member_iff idx other).1 member
    rw [taken_hashValue, Function.update_of_ne not_item]
    have placed := valid.placed idx other is_in
    rwa [slot, taken_max]
  · rw [taken_hashValue]
    have clear := valid.clear other
    have absent_before : other ≠ item → ∀ idx, other ∉ chains idx := fun ne idx member =>
      absent idx ((member_iff idx other).2 ⟨member, ne⟩)
    have chain_mem : ∀ prev ∈ before, prev ∈ chains (list.slot hash) := by
      simp +contextual [chain_eq]
    cases before_eq : before.getLast? with
    | none =>
        simp only [HashList.taken, Function.update_apply]
        grind
    | some prev =>
        have is_in := chain_mem prev (List.mem_of_getLast? before_eq)
        simp only [HashList.taken, Function.update_apply]
        grind
  · rw [taken_count, taken_max, valid.count_eq]
    have sum := total_update (valid.slot_lt hash) chains (before ++ rest)
    rw [chain_eq, List.length_append, List.length_append, List.length_cons] at sum
    omega

theorem Valid.hashRemove {before rest : List ι} (valid : Valid list chains)
    (chain_eq : chains (list.slot hash) = before ++ item :: rest)
    (hash_eq : list.hashValue item = hash) (is_equal : equal item = true)
    (none_equal : ∀ other ∈ before, ¬ (list.hashValue other = hash ∧ equal other = true))
    {rounds : Nat} (enough : (chains (list.slot hash)).length < rounds) :
    list.hashRemove rounds hash equal = some (list.taken hash before.getLast? item) := by
  have chain := valid.chain _ (valid.slot_lt hash)
  rw [chain_eq] at chain enough
  rw [List.length_append] at enough
  have walked : walkBehind list.next (fun item =>
    list.hashValue item = hash ∧ equal item) rounds none
      (list.buckets (list.slot hash)) = some (some (before.getLast?.or none, item)) :=
    walkBehind_of_first chain (fun other member => by simpa using none_equal other member)
      (by simp [hash_eq, is_equal]) (by omega) none
  rw [HashList.hashRemove]
  simp only [walked, Option.bind_eq_bind, Option.bind_some, Option.or_none]
  cases before.getLast? <;> rfl

end Chains

end Spp.HashList
