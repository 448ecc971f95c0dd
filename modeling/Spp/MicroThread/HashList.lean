import Spp.Lib.Chain

/-!
# The hash table, `HashList`

The open hash table of `sync_frame/micro_thread/hash_list.h`.  The keys are objects with a link, so
the table is an array of first keys and the links of the keys.  Whether a key is in the table is not
stored anywhere: `HashInsert` takes a key for a new one if its `_hash_value` is 0 and it has no
link.

Keys are pointers of a type `ι`.  A key that is looked for is given by its `HashValue` and by what
`HashCmp` says of the keys in the table; loops take at most `rounds` rounds.
-/

namespace Spp

/-- `HashList` -/
structure HashList (ι : Type) where
  max : Nat
  buckets : Nat → Option ι
  count : Int
  next : ι → Option ι
  hashValue : ι → UInt32

namespace HashList

open LinkedChain

/-- No number up to `sqrtValue` divides it. -/
def undivided (sqrtValue num : Nat) : Bool :=
  (List.range' 2 (sqrtValue - 1)).all fun k => num % k ≠ 0

/-- The loop of `GetMaxPrimeNum`. -/
def maxPrimeLoop (sqrtValue : Nat) : Nat → Nat
  | 0 => 0
  | num + 1 => if undivided sqrtValue (num + 1) then num + 1 else maxPrimeLoop sqrtValue num

/-- `GetMaxPrimeNum` -/
def getMaxPrimeNum (num : Nat) : Nat := maxPrimeLoop (Nat.sqrt num) num

section Table

variable {ι : Type} [DecidableEq ι]

/-- `HashList::HashList`, when there is memory for the buckets. -/
def new (max : Int) : HashList ι where
  max := getMaxPrimeNum (if max > 2 then max.toNat else 100000)
  buckets := fun _ => none
  count := 0
  next := fun _ => none
  hashValue := fun _ => 0

/-- The bucket of a hash. -/
def slot (list : HashList ι) (hash : UInt32) : Nat := hash.toNat % list.max

/-- `HashInsert` -/
def hashInsert (list : HashList ι) (value : ι → UInt32) (key : Option ι) : Int × HashList ι :=
  match key with
  | none => (-1, list)
  | some key =>
      if list.hashValue key ≠ 0 ∨ list.next key ≠ none then
        (-2, list)
      else
        let idx := list.slot (value key)
        (0, { list with
          hashValue := Function.update list.hashValue key (value key)
          buckets := Function.update list.buckets idx (some key)
          next := Function.update list.next key (list.buckets idx)
          count := list.count + 1 })

/-- `HashFind` of a key with the value `hash`, where `equal` is `HashCmp` with this key. -/
def hashFind (list : HashList ι) (rounds : Nat) (hash : UInt32) (equal : ι → Bool) :
    Option (Option ι) :=
  walk list.next (fun item => list.hashValue item = hash ∧ equal item) rounds
    (list.buckets (list.slot hash))

/-- `HashRemove` of a key with the value `hash`, where `equal` is `HashCmp` with this key. -/
def hashRemove (list : HashList ι) (rounds : Nat) (hash : UInt32) (equal : ι → Bool) :
    Option (HashList ι) := do
  let idx := list.slot hash
  match ← walkBehind list.next (fun item => list.hashValue item = hash ∧ equal item) rounds none
    (list.buckets idx) with
  | none => return list
  | some (prev, item) =>
      let list :=
        match prev with
        | none => { list with buckets := Function.update list.buckets idx (list.next item) }
        | some prev => { list with next := Function.update list.next prev (list.next item) }
      return { list with
        hashValue := Function.update list.hashValue item 0
        next := Function.update list.next item none
        count := list.count - 1 }

/-- An element is in a bucket. -/
def Stored (list : HashList ι) (key : ι) : Prop :=
  ∃ idx < list.max, Leads list.next (list.buckets idx) key

end Table

theorem maxPrimeLoop_pos (sqrtValue : Nat) {num : Nat} (pos : 0 < num) :
    0 < maxPrimeLoop sqrtValue num := by
  induction num with
  | zero => exact absurd pos (lt_irrefl 0)
  | succ num induction =>
      rw [maxPrimeLoop]
      split
      · exact Nat.succ_pos num
      · rename_i divided
        cases num with
        | zero =>
            refine absurd ?_ divided
            simp only [undivided, List.all_eq_true, List.mem_range'_1, decide_eq_true_eq]
            intro k bounds
            rw [Nat.mod_eq_of_lt (by omega)]
            decide
        | succ num => exact induction (Nat.succ_pos num)

theorem getMaxPrimeNum_pos {num : Nat} (pos : 0 < num) : 0 < getMaxPrimeNum num :=
  maxPrimeLoop_pos (Nat.sqrt num) pos

theorem new_max_pos {ι : Type} (max : Int) : 0 < (new max : HashList ι).max := by
  refine getMaxPrimeNum_pos ?_
  split <;> omega

end HashList

end Spp
