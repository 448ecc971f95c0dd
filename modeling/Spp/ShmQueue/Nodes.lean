import Spp.ShmQueue.Basic
import Spp.Lib.SegmentRing

/-!
# Nodes and positions

What the position macros compute on the ring, and what the accesses of `sq_put` and `sq_get` do to
the bytes of a node.  A queue is `Sound` when its counts leave room for the `int` arithmetic of the
macros and its nodes are all there.
-/

namespace Spp
namespace SqHead

open CircularBuffer SegmentRing

/-- The number of nodes. -/
def ring (queue : SqHead) : Nat := queue.eleCount + 1

/-- A queue whose macros do not overflow. -/
structure Sound (queue : SqHead) : Prop where
  count_lt : queue.eleCount < 1073741824
  size_lt : queue.eleSize < 2147483648
  nodes_size : queue.nodes.size = queue.ring * queue.sqNodeSize

/-- A queue whose nodes are all there and have an `int` for an index. -/
structure Numbered (queue : SqHead) : Prop where
  ring_lt : queue.ring < 2147483648
  nodes_size : queue.nodes.size = queue.ring * queue.sqNodeSize

variable {queue : SqHead} {pos val head used tail len offset node : Nat} {bytes : List UInt8}

theorem Sound.numbered (sound : queue.Sound) : queue.Numbered := by
  have count_lt := sound.count_lt
  exact ⟨by unfold ring; omega, sound.nodes_size⟩

/-! ## Positions -/

theorem mod_eq_wrap {size : Nat} (pos_lt : pos < size) (val_lt : val ≤ size) :
    (pos + val) % size = wrap size pos val := by
  unfold wrap
  split
  · exact Nat.mod_eq_of_lt ‹_›
  · rw [Nat.mod_eq_sub_mod (by omega), Nat.mod_eq_of_lt (by omega)]

theorem ringSize_eq (numbered : queue.Numbered) : queue.ringSize = some (queue.ring : Int) :=
  int32_of_nat numbered.ring_lt

theorem sqAddPos_of_lt (numbered : queue.Numbered) (pos_lt : pos < queue.ring)
    (val_le : val ≤ queue.ring) (sum_lt : pos + val < 2147483648) :
    queue.sqAddPos pos val = some (wrap queue.ring pos val : Int) := by
  have sum_eq : int32 ((pos : Int) + val) = some ((pos + val : Nat) : Int) := int32_of_nat sum_lt
  rw [sqAddPos, sum_eq, ringSize_eq numbered, ← mod_eq_wrap pos_lt val_le]
  rfl

theorem sqAddPos_eq (sound : queue.Sound) (pos_lt : pos < queue.ring) (val_le : val ≤ queue.ring) :
    queue.sqAddPos pos val = some (wrap queue.ring pos val : Int) := by
  have count_lt := sound.count_lt
  exact sqAddPos_of_lt sound.numbered pos_lt val_le (by unfold ring at *; omega)

theorem sqAddPos_one (numbered : queue.Numbered) (pos_lt : pos < queue.ring) :
    queue.sqAddPos pos 1 = some (wrap queue.ring pos 1 : Int) := by
  have ring_lt := numbered.ring_lt
  have added := sqAddPos_of_lt numbered pos_lt (show 1 ≤ queue.ring by omega) (by omega)
  rwa [Nat.cast_one] at added

/-- The nodes not in use, when `used` nodes lie between `head` and the tail. -/
theorem sqEmptyNodes2_of_lt (numbered : queue.Numbered) (head_lt : head < queue.ring)
    (used_lt : used < queue.ring) (tail_lt : tail < queue.ring)
    (tail_eq : tail = wrap queue.ring head used) (at_tail : queue.tailPos = tail)
    (sum_lt : head + queue.eleCount < 2147483648) :
    queue.sqEmptyNodes2 head = some ((queue.eleCount - used : Nat) : Int) := by
  have sum_eq : int32 ((head : Int) + queue.eleCount) =
      some ((head + queue.eleCount : Nat) : Int) := int32_of_nat sum_lt
  have difference_eq : int32 (((head + queue.eleCount : Nat) : Int) - queue.tailPos) =
      some ((head + queue.eleCount - tail : Nat) : Int) := by
    rw [at_tail, show ((head + queue.eleCount : Nat) : Int) - tail =
      ((head + queue.eleCount - tail : Nat) : Int) by unfold ring at *; omega]
    exact int32_of_nat (by omega)
  have value_eq : (head + queue.eleCount - tail) % queue.ring = queue.eleCount - used := by
    rw [tail_eq]
    unfold wrap ring at *
    split
    · rw [Nat.mod_eq_of_lt (by omega)]
      omega
    · rw [Nat.mod_eq_sub_mod (by omega), Nat.mod_eq_of_lt (by omega)]
      omega
  rw [sqEmptyNodes2, sum_eq, Option.bind_eq_bind, Option.bind_some, difference_eq,
    ringSize_eq numbered, ← value_eq]
  rfl

theorem sqUsedNodes2_of_lt (numbered : queue.Numbered) (head_lt : head < queue.ring)
    (used_lt : used < queue.ring) (tail_lt : tail < queue.ring)
    (tail_eq : tail = wrap queue.ring head used) (at_tail : queue.tailPos = tail)
    (sum_lt : head + queue.eleCount < 2147483648) :
    queue.sqUsedNodes2 head = some (used : Int) := by
  rw [sqUsedNodes2, sqEmptyNodes2_of_lt numbered head_lt used_lt tail_lt tail_eq at_tail sum_lt,
    Option.bind_eq_bind, Option.bind_some, show (queue.eleCount : Int) -
      ((queue.eleCount - used : Nat) : Int) = (used : Int) by unfold ring at *; omega]
  exact int32_of_nat (by unfold ring at *; omega)

section Used

variable (sound : queue.Sound) (head_lt : head < queue.ring) (used_lt : used < queue.ring)
  (tail_lt : tail < queue.ring) (tail_eq : tail = advance queue.ring head used)
  (at_tail : queue.tailPos = tail)

include sound head_lt used_lt tail_lt tail_eq at_tail

theorem sqEmptyNodes2_eq :
    queue.sqEmptyNodes2 head = some ((queue.eleCount - used : Nat) : Int) := by
  have count_lt := sound.count_lt
  exact sqEmptyNodes2_of_lt sound.numbered head_lt used_lt tail_lt
    (eq_wrap_of_eq_advance tail_lt tail_eq) at_tail (by unfold ring at *; omega)

theorem sqUsedNodes2_eq : queue.sqUsedNodes2 head = some (used : Int) := by
  have count_lt := sound.count_lt
  exact sqUsedNodes2_of_lt sound.numbered head_lt used_lt tail_lt
    (eq_wrap_of_eq_advance tail_lt tail_eq) at_tail (by unfold ring at *; omega)

end Used

theorem sqGetNode_eq (queue : SqHead) (idx : Nat) :
    queue.sqGetNode idx = some (idx * queue.sqNodeSize) := by
  simp [sqGetNode]

/-! ## Messages -/

/-- A message and its time. -/
structure Message where
  data : List UInt8
  time : Timeval

/-- A length that `sq_put` accepts. -/
def Message.Valid (message : Message) : Prop :=
  0 < message.data.length ∧ message.data.length ≤ 65536

/-- The header and the data of a message, as they lie in its nodes. -/
def Message.record (message : Message) : List UInt8 :=
  le32 startToken ++ le32 message.data.length ++ message.time.bytes ++ message.data

variable {message : Message}

@[simp] theorem Message.length_record (message : Message) :
    message.record.length = message.data.length + 24 := by
  simp [Message.record, message.time.length_eq]
  omega

/-- The nodes that a message takes. -/
def needed (queue : SqHead) (message : Message) : Nat :=
  (message.data.length + 24 + queue.sqNodeSize - 1) / queue.sqNodeSize

theorem needed_eq (queue : SqHead) (message : Message) :
    queue.needed message = (message.data.length + 23) / queue.sqNodeSize + 1 := by
  have size_pos : 0 < queue.sqNodeSize := by
    unfold sqNodeSize sqNodeHeadSize
    omega
  rw [needed, show message.data.length + 24 + queue.sqNodeSize - 1 =
    message.data.length + 23 + queue.sqNodeSize by omega, Nat.add_div_right _ size_pos]

theorem needed_pos (queue : SqHead) (message : Message) : 0 < queue.needed message := by
  rw [needed_eq]
  exact Nat.succ_pos _

theorem record_le_nodes (queue : SqHead) (message : Message) :
    message.data.length + 24 ≤ queue.needed message * queue.sqNodeSize := by
  have size_pos : 0 < queue.sqNodeSize := by
    unfold sqNodeSize sqNodeHeadSize
    omega
  have bound := Nat.lt_mul_div_succ (message.data.length + 23) size_pos
  rw [needed_eq, Nat.mul_comm]
  omega

/-- The nodes needed for a length that is not negative: nothing is truncated. -/
theorem sqNumNeededNodes_of_lt (size_lt : queue.eleSize < 2147483648) (len_lt : len < 2147483648) :
    queue.sqNumNeededNodes len = ((len + 24 + queue.sqNodeSize - 1) / queue.sqNodeSize : Nat) := by
  have size_ge : 24 ≤ queue.sqNodeSize := Nat.le_add_right 24 queue.eleSize
  have exact_value : u64 ((len : Int) + sqNodeHeadSize + queue.sqNodeSize - 1) =
      len + 24 + queue.sqNodeSize - 1 := by
    unfold u64 sqNodeSize sqNodeHeadSize
    omega
  rw [sqNumNeededNodes, exact_value]
  apply i32_of_lt
  have quotient_le : (len + 24 + queue.sqNodeSize - 1) / queue.sqNodeSize ≤
      (len + 24 + queue.sqNodeSize - 1) / 24 := Nat.div_le_div_left size_ge (by decide)
  have bound : (len + 24 + queue.sqNodeSize - 1) / 24 < 2147483648 := by
    unfold sqNodeSize sqNodeHeadSize
    omega
  exact lt_of_le_of_lt quotient_le bound

theorem sqNumNeededNodes_eq (sound : queue.Sound) (valid : message.Valid) :
    queue.sqNumNeededNodes message.data.length = queue.needed message := by
  obtain ⟨_, length_le⟩ := valid
  exact sqNumNeededNodes_of_lt sound.size_lt (by omega)

/-! ## The bytes of the nodes -/

/-- The queue with some bytes of its nodes overwritten. -/
def spliced (queue : SqHead) (offset : Nat) (bytes : List UInt8) : SqHead :=
  { queue with nodes := { queue.nodes with byte := splice queue.nodes.byte offset bytes } }

theorem copyIn_eq (inside : offset + bytes.length ≤ queue.nodes.size) :
    queue.copyIn offset bytes = some (queue.spliced offset bytes) := by
  rw [copyIn, ByteRegion.write_eq inside]
  rfl

theorem record_end_le (sound : queue.Sound) (node_le : node + queue.needed message ≤ queue.ring) :
    node * queue.sqNodeSize + (message.data.length + 24) ≤ queue.nodes.size := by
  have fits := record_le_nodes queue message
  have product_le := Nat.mul_le_mul_right queue.sqNodeSize node_le
  rw [Nat.add_mul] at product_le
  rw [sound.nodes_size]
  omega

/-- The start token of a node. -/
def token (queue : SqHead) (node : Nat) : Nat :=
  readLe32 (slice queue.nodes.byte (node * queue.sqNodeSize) 4)

/-- Two queues of the same shape whose nodes satisfying `kept` have the same bytes. -/
structure AgreeOn (kept : Nat → Prop) (first second : SqHead) : Prop where
  count_eq : second.eleCount = first.eleCount
  size_eq : second.eleSize = first.eleSize
  byte_eq : ∀ node, kept node → ∀ index < first.sqNodeSize,
    second.nodes.byte (node * first.sqNodeSize + index) =
      first.nodes.byte (node * first.sqNodeSize + index)

section AgreeOn

variable {kept : Nat → Prop} {first second : SqHead} (agree : AgreeOn kept first second)

include agree

theorem AgreeOn.ring_eq : second.ring = first.ring := by
  rw [ring, agree.count_eq, ring]

theorem AgreeOn.sqNodeSize_eq : second.sqNodeSize = first.sqNodeSize := by
  rw [sqNodeSize, agree.size_eq, sqNodeSize]

theorem AgreeOn.needed_eq (message : Message) : second.needed message = first.needed message := by
  rw [needed, agree.sqNodeSize_eq, needed]

theorem AgreeOn.slice_eq (nr : Nat) (inside : offset + len ≤ nr * first.sqNodeSize)
    (run_kept : ∀ index < nr, kept (node + index)) :
    slice second.nodes.byte (node * second.sqNodeSize + offset) len =
      slice first.nodes.byte (node * first.sqNodeSize + offset) len := by
  have size_pos : 0 < first.sqNodeSize := by
    unfold sqNodeSize sqNodeHeadSize
    omega
  rw [agree.sqNodeSize_eq]
  apply slice_congr
  intro index index_lt
  have node_lt : (offset + index) / first.sqNodeSize < nr :=
    Nat.div_lt_of_lt_mul (by rw [Nat.mul_comm]; omega)
  have address_eq : node * first.sqNodeSize + offset + index =
      (node + (offset + index) / first.sqNodeSize) * first.sqNodeSize +
        (offset + index) % first.sqNodeSize := by
    have division := Nat.div_add_mod' (offset + index) first.sqNodeSize
    rw [Nat.add_mul]
    omega
  rw [address_eq]
  exact agree.byte_eq _ (run_kept _ node_lt) _ (Nat.mod_lt _ size_pos)

theorem AgreeOn.token_eq (node_kept : kept node) : second.token node = first.token node := by
  have inside : 0 + 4 ≤ 1 * first.sqNodeSize := by
    unfold sqNodeSize sqNodeHeadSize
    omega
  have run_kept : ∀ index < 1, kept (node + index) := by
    intro index index_lt
    rwa [show node + index = node by omega]
  exact congrArg readLe32 (agree.slice_eq 1 inside run_kept)

theorem AgreeOn.mono {fewer : Nat → Prop} (fewer_kept : ∀ node, fewer node → kept node) :
    AgreeOn fewer first second :=
  ⟨agree.count_eq, agree.size_eq, fun node member => agree.byte_eq node (fewer_kept node member)⟩

theorem AgreeOn.trans {third : SqHead} (next : AgreeOn kept second third) :
    AgreeOn kept first third := by
  refine ⟨next.count_eq.trans agree.count_eq, next.size_eq.trans agree.size_eq, ?_⟩
  intro node member index index_lt
  have next_eq := next.byte_eq node member index (by rw [agree.sqNodeSize_eq]; exact index_lt)
  rw [agree.sqNodeSize_eq] at next_eq
  exact next_eq.trans (agree.byte_eq node member index index_lt)

end AgreeOn

theorem agreeOn_spliced (queue : SqHead) {nr : Nat}
    (inside : bytes.length ≤ nr * queue.sqNodeSize) :
    AgreeOn (fun other => other < node ∨ node + nr ≤ other) queue
      (queue.spliced (node * queue.sqNodeSize) bytes) := by
  refine ⟨rfl, rfl, ?_⟩
  intro other apart index index_lt
  apply splice_outside
  obtain before | after := apart
  · left
    have product_le := Nat.mul_le_mul_right queue.sqNodeSize (show other + 1 ≤ node by omega)
    rw [Nat.add_mul] at product_le
    omega
  · right
    have product_le := Nat.mul_le_mul_right queue.sqNodeSize after
    rw [Nat.add_mul] at product_le
    omega

end SqHead
end Spp
