import Spp.Lib.BinaryHeap
import Spp.Lib.MachineInt

/-!
# The heap of timers and sleeping threads, `HeapList`

The heap of `sync_frame/micro_thread/heap.h`: an array of entry pointers, used from slot 1 on, with
the slot of each entry stored in the entry itself (`_index`, 0 when it is in no heap).  Entries are
the elements of a type `ι`; `value` is their `HeapValue`, which belongs to the entries and not to
the heap.  Following a null pointer, or a slot outside the array, is a failure (`none`); so is a
loop that runs longer than the array is.
-/

namespace Spp

/-- `HeapList` -/
structure HeapList (ι : Type) where
  /-- `_list`; `none` is a null pointer. -/
  list : Nat → Option ι
  max : Nat
  count : Nat
  index : ι → Nat

namespace HeapList

variable {ι : Type}

/-- `HeapList::HeapList`, with entries that are in no heap. -/
def new (max : Int) : HeapList ι where
  list := fun _ => none
  max := if max > 0 then max.toNat else 100000
  count := 0
  index := fun _ => 0

/-- The entry of a slot. -/
def entryAt (heap : HeapList ι) (pos : Nat) : Option ι :=
  if pos ≤ heap.max then heap.list pos else none

/-- `HeapValueCmp` -/
def heapValueCmp (value : ι → Nat) (entry rhs : ι) : Int :=
  if value entry = value rhs then 0 else if value entry > value rhs then 1 else -1

/-- `HeapTop` -/
def heapTop (heap : HeapList ι) : Option ι := if heap.count > 0 then heap.list 1 else none

/-- `HeapFull` -/
def heapFull (heap : HeapList ι) : Bool := heap.count ≥ heap.max

/-- `HeapEmpty` -/
def heapEmpty (heap : HeapList ι) : Bool := heap.count = 0

/-- `HeapResize`; `allocated` tells whether the allocation succeeds. -/
def heapResize (heap : HeapList ι) (size : Int) (allocated : Bool) : Option (Int × HeapList ι) :=
  if heap.max ≥ size then
    some (0, heap)
  else do
    let _ ← int32 (size + 1)
    if allocated then
      return (0, { heap with max := size.toNat })
    else
      return (-1, heap)

variable [DecidableEq ι]

/-- `SetIndex` -/
def setIndex (heap : HeapList ι) (entry : ι) (index : Nat) : HeapList ι :=
  { heap with index := Function.update heap.index entry index }

/-- The exchange in `HeapUp` and `HeapDown` of `entry` at `pos` and `other` at `slot`. -/
def exchanged (heap : HeapList ι) (pos slot : Nat) (entry other : ι) : HeapList ι :=
  ({ heap with
      list := Function.update (Function.update heap.list slot (some entry)) pos
        (some other) }.setIndex
    other pos).setIndex entry slot

/-- The loop of `HeapUp`, for at most `rounds` rounds. -/
def heapUpLoop (value : ι → Nat) : (rounds pos : Nat) → HeapList ι → Option (HeapList ι)
  | 0, _, _ => none
  | rounds + 1, pos, heap =>
      if pos = 0 ∨ pos / 2 < 1 then
        some heap
      else do
        let entry ← heap.entryAt pos
        let parent ← heap.entryAt (pos / 2)
        if heapValueCmp value entry parent < 0 then
          heapUpLoop value rounds (pos / 2) (heap.exchanged pos (pos / 2) entry parent)
        else
          return heap

/-- `HeapUp` -/
def heapUp (value : ι → Nat) (heap : HeapList ι) : Option (HeapList ι) :=
  heapUpLoop value (heap.count + 1) heap.count heap

/-- `min_son` of `HeapDown`, for a position that has a son. -/
def minSon (value : ι → Nat) (heap : HeapList ι) (pos : Nat) : Option Nat :=
  if pos * 2 = heap.count then
    some (pos * 2)
  else do
    let right ← heap.entryAt (pos * 2 + 1)
    let left ← heap.entryAt (pos * 2)
    return if heapValueCmp value right left < 0 then pos * 2 + 1 else pos * 2

/-- The loop of `HeapDown`, for at most `rounds` rounds. -/
def heapDownLoop (value : ι → Nat) : (rounds pos : Nat) → HeapList ι → Option (HeapList ι)
  | 0, _, _ => none
  | rounds + 1, pos, heap =>
      if pos ≤ heap.count then do
        let _ ← int32 (pos * 2)
        if pos * 2 > heap.count then
          return heap
        else
          let son ← heap.minSon value pos
          let entry ← heap.entryAt pos
          let other ← heap.entryAt son
          if heapValueCmp value entry other > 0 then
            heapDownLoop value rounds son (heap.exchanged pos son entry other)
          else
            return heap
      else
        some heap

/-- `HeapDown` -/
def heapDown (value : ι → Nat) (heap : HeapList ι) (index : Nat) : Option (HeapList ι) :=
  heapDownLoop value (heap.count + 1) index heap

/-- The heap in `HeapPush` before `HeapUp`: `item` stands in a new last slot. -/
def appended (heap : HeapList ι) (item : ι) : HeapList ι :=
  { heap with
    count := heap.count + 1
    list := Function.update heap.list (heap.count + 1) (some item) }.setIndex item (heap.count + 1)

/-- `HeapPush` -/
def heapPush (value : ι → Nat) (heap : HeapList ι) (item : ι) : Option (Int × HeapList ι) :=
  if heap.heapFull then
    some (-1, heap)
  else if heap.index item ≠ 0 then
    some (-2, heap)
  else
    (heapUp value (heap.appended item)).map fun heap => (0, heap)

/-- The heap in `HeapPop` and `HeapDelete` before `HeapDown`: the entry `last` of the last slot,
which is cleared, stands at `pos`. -/
def replaced (heap : HeapList ι) (pos : Nat) (last : ι) : HeapList ι :=
  { heap with
    list := Function.update (Function.update heap.list pos (some last)) heap.count none
    count := heap.count - 1 }.setIndex last pos

/-- The common part of `HeapPop` and `HeapDelete`: the last entry takes the place of the one at
`pos`, which is returned. -/
def removeAt (value : ι → Nat) (heap : HeapList ι) (pos : Nat) : Option (ι × HeapList ι) := do
  let del ← heap.entryAt pos
  let last ← heap.entryAt heap.count
  let heap ← heapDown value (heap.replaced pos last) pos
  return (del, heap.setIndex del 0)

/-- `HeapPop` -/
def heapPop (value : ι → Nat) (heap : HeapList ι) : Option (Option ι × HeapList ι) :=
  if heap.heapEmpty then
    some (none, heap)
  else
    (heap.removeAt value 1).map fun (top, heap) => (some top, heap)

/-- `HeapDelete` -/
def heapDelete (value : ι → Nat) (heap : HeapList ι) (item : ι) : Option (Int × HeapList ι) :=
  if heap.heapEmpty then
    some (-1, heap)
  else
    let pos := heap.index item
    if pos > heap.count ∨ pos = 0 then
      some (-2, heap)
    else
      (heap.removeAt value pos).map fun (_, heap) => (0, heap)

end HeapList
end Spp
