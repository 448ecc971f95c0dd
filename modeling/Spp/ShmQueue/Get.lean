import Spp.ShmQueue.Put

/-!
# Getting a message

The steps of `sq_get` on a ring that holds messages: the scan stops at the oldest record, the
compare-and-swap gives its nodes to the reader as dirty nodes, the copy reads it, and resetting the
tokens makes the nodes clean again.
-/

namespace Spp
namespace SqHead

open CircularBuffer SegmentRing

/-! ## Scan -/

variable {offset node pos head : Nat} {message : Message} {queue before after : SqHead}
  {range dirty : Nat → Prop} {messages : List Message}

theorem record_fields {byte : Nat → UInt8}
    (record : slice byte offset (message.data.length + 24) = message.record) :
    slice byte offset 4 = le32 startToken ∧
      slice byte (offset + 4) 4 = le32 message.data.length ∧
      slice byte (offset + 8) 16 = message.time.bytes ∧
      slice byte (offset + 24) message.data.length = message.data := by
  rw [show message.data.length + 24 = 4 + (4 + (16 + message.data.length)) by omega, slice_add,
    slice_add, slice_add, Message.record, List.append_assoc, List.append_assoc] at record
  obtain ⟨token_eq, record⟩ := List.append_inj record (by simp)
  obtain ⟨length_eq, record⟩ := List.append_inj record (by simp)
  obtain ⟨time_eq, data_eq⟩ := List.append_inj record (by simp [message.time.length_eq])
  exact ⟨token_eq, length_eq, time_eq, data_eq⟩

theorem header_end_le (numbered : queue.Numbered) (node_lt : node < queue.ring) :
    node * queue.sqNodeSize + sqNodeHeadSize ≤ queue.nodes.size := by
  have product_le := Nat.mul_le_mul_right queue.sqNodeSize (show node + 1 ≤ queue.ring by omega)
  rw [Nat.add_mul] at product_le
  rw [numbered.nodes_size]
  unfold sqNodeSize sqNodeHeadSize at *
  omega

theorem read_header (numbered : queue.Numbered) (node_lt : node < queue.ring) (offset : Nat)
    (offset_le : offset + 4 ≤ 24) :
    queue.nodes.read (node * queue.sqNodeSize + offset) 4 =
      some (slice queue.nodes.byte (node * queue.sqNodeSize + offset) 4) := by
  apply ByteRegion.read_eq
  have end_le := header_end_le numbered node_lt
  unfold sqNodeHeadSize at end_le
  omega

theorem sqScan_next (numbered : queue.Numbered) (oldHead : Int) (rounds : Nat)
    (pos_lt : pos < queue.ring) (not_tail : queue.tailPos ≠ pos)
    (no_token : queue.token pos ≠ startToken) :
    queue.sqScan oldHead (rounds + 1) pos =
      queue.sqScan oldHead rounds (wrap queue.ring pos 1 : Nat) := by
  have read_eq : queue.nodes.read (pos * queue.sqNodeSize) 4 =
      some (slice queue.nodes.byte (pos * queue.sqNodeSize) 4) :=
    read_header numbered pos_lt 0 (by omega)
  have differs : readLe32 (slice queue.nodes.byte (pos * queue.sqNodeSize) 4) ≠ startToken :=
    no_token
  rw [sqScan, if_neg not_tail, sqGetNode_eq]
  simp only [Option.bind_eq_bind, Option.bind_some]
  rw [read_eq, Option.bind_some, if_pos differs, sqAddPos_one numbered pos_lt, Option.bind_some]

theorem sqScan_skip (numbered : queue.Numbered) (oldHead : Int) (rounds count : Nat)
    (pos_lt : pos < queue.ring) (count_le : count ≤ queue.ring)
    (no_token : ∀ offset < count, queue.token (wrap queue.ring pos offset) = 0)
    (before_tail : ∀ offset < count, queue.tailPos ≠ (wrap queue.ring pos offset : Nat)) :
    queue.sqScan oldHead (count + rounds) pos =
      queue.sqScan oldHead rounds (wrap queue.ring pos count : Nat) := by
  induction count generalizing pos with
  | zero => rw [Nat.zero_add, wrap, if_pos (by omega), Nat.add_zero]
  | succ count induction =>
      have at_pos : wrap queue.ring pos 0 = pos := by
        rw [wrap, if_pos (by omega), Nat.add_zero]
      have token_zero := no_token 0 (by omega)
      have not_tail := before_tail 0 (by omega)
      rw [at_pos] at token_zero not_tail
      have differs : queue.token pos ≠ startToken :=
        fun same => absurd (token_zero.symm.trans same) (by decide)
      have next_wrap : ∀ offset ≤ count, wrap queue.ring (wrap queue.ring pos 1) offset =
          wrap queue.ring pos (offset + 1) := by
        intro offset offset_le
        rw [wrap_wrap pos_lt (by omega), Nat.add_comm]
      rw [show count + 1 + rounds = (count + rounds) + 1 by omega,
        sqScan_next numbered oldHead _ pos_lt not_tail differs,
        induction (by unfold wrap; split <;> omega) (by omega), next_wrap count le_rfl]
      · intro offset offset_lt
        rw [next_wrap offset offset_lt.le]
        exact no_token _ (by omega)
      · intro offset offset_lt
        rw [next_wrap offset offset_lt.le]
        exact before_tail _ (by omega)

theorem sqScan_record (sound : queue.Sound) (oldHead : Int) (rounds : Nat) {behind tail : Nat}
    (valid : message.Valid) (node_le : node + queue.needed message < queue.ring)
    (record : slice queue.nodes.byte (node * queue.sqNodeSize) (message.data.length + 24) =
      message.record)
    (room : queue.needed message + behind < queue.ring) (tail_lt : tail < queue.ring)
    (tail_eq : tail = advance queue.ring node (queue.needed message + behind))
    (at_tail : queue.tailPos = tail) :
    queue.sqScan oldHead (rounds + 1) node =
      some (.found node (node + queue.needed message : Nat) message.data.length) := by
  have nr_pos := needed_pos queue message
  have node_lt : node < queue.ring := by omega
  obtain ⟨token_eq, length_eq, _, _⟩ := record_fields record
  have not_tail : ¬ queue.tailPos = node := by
    intro same
    have tail_ne : advance queue.ring node (queue.needed message + behind) ≠ node :=
      advance_ne_self (by omega) room
    omega
  have token_read := read_header sound.numbered node_lt 0 (by omega)
  have length_read := read_header sound.numbered node_lt 4 (by omega)
  rw [Nat.add_zero, token_eq] at token_read
  rw [length_eq] at length_read
  have token_value : readLe32 (le32 startToken) = startToken := by decide
  have length_value : i32 (readLe32 (le32 message.data.length)) = message.data.length := by
    obtain ⟨_, length_le⟩ := valid
    have decoded := readLe32_le32_append message.data.length []
    rw [List.append_nil] at decoded
    rw [decoded, Nat.mod_eq_of_lt (by omega)]
    exact i32_of_lt (by omega)
  have end_eq : wrap queue.ring node (queue.needed message) = node + queue.needed message :=
    if_pos (by omega)
  rw [sqScan, if_neg not_tail, sqGetNode_eq]
  simp only [Option.bind_eq_bind, Option.bind_some]
  rw [token_read, Option.bind_some, token_value, if_neg (by simp), length_read]
  rw [Option.bind_some, length_value, sqNumNeededNodes_eq sound valid,
    sqUsedNodes2_eq sound node_lt room tail_lt tail_eq at_tail, Option.bind_some,
    if_neg (by omega), sqAddPos_eq sound node_lt (by omega), Option.bind_some, end_eq]
  rfl

section Scan

theorem Holds.scan_nil (holds : queue.Holds head dirty []) : queue.scan = some .empty := by
  have at_head : queue.tailPos = queue.headPos := by
    rw [holds.tail_eq, holds.head_eq]
    rfl
  rw [scan, sqScan, if_pos at_head, if_pos rfl]

theorem Holds.scan_cons {rest : List Message} (holds : queue.Holds head dirty (message :: rest)) :
    queue.scan = some (.found (place queue.ring head (queue.needed message))
      (place queue.ring head (queue.needed message) + queue.needed message : Nat)
      message.data.length) := by
  obtain ⟨valid, proper, skipped, record, later⟩ := holds.stored
  have sound := holds.sound
  have head_lt := holds.head_lt
  have at_tail : queue.tailPos = (queue.tail head (message :: rest) : Nat) := holds.tail_eq
  have place_lt : place queue.ring head (queue.needed message) + queue.needed message <
      queue.ring := place_add_lt proper
  obtain ⟨behind, behind_eq⟩ : ∃ behind, queue.used
      (place queue.ring head (queue.needed message) + queue.needed message) rest = behind :=
    ⟨_, rfl⟩
  have used_eq : queue.used head (message :: rest) =
      extent queue.ring head (queue.needed message) + behind := by
    rw [← behind_eq]
    rfl
  have room : extent queue.ring head (queue.needed message) + behind < queue.ring :=
    used_eq ▸ holds.room
  have behind_lt : queue.needed message + behind < queue.ring := by
    unfold extent at room
    split at room <;> omega
  have tail_eq : queue.tail head (message :: rest) =
      advance queue.ring (place queue.ring head (queue.needed message))
        (queue.needed message + behind) := by
    have past : advance queue.ring (place queue.ring head (queue.needed message))
        (queue.needed message) =
          place queue.ring head (queue.needed message) + queue.needed message :=
      if_pos place_lt.le
    have rest_room : span queue.ring
        (place queue.ring head (queue.needed message) + queue.needed message)
        (queue.blocks rest) < queue.ring := by
      unfold used at behind_eq
      omega
    rw [← advance_advance (by omega) behind_lt.le, past, ← behind_eq]
    exact (advance_span place_lt later.proper rest_room).symm
  have rounds_eq : queue.eleCount + 1 = queue.ring := rfl
  rw [scan, holds.head_eq, rounds_eq]
  by_cases fits : head + queue.needed message < queue.ring
  · have place_eq : place queue.ring head (queue.needed message) = head := if_pos fits
    rw [place_eq] at record tail_eq ⊢
    obtain ⟨rounds, ring_eq⟩ := Nat.exists_eq_succ_of_ne_zero (show queue.ring ≠ 0 by omega)
    have found := sqScan_record sound (head : Int) rounds valid fits record behind_lt
      holds.tail_lt tail_eq at_tail
    rw [ring_eq]
    exact found
  · have place_eq : place queue.ring head (queue.needed message) = 0 := if_neg fits
    have extent_eq : extent queue.ring head (queue.needed message) =
        queue.ring - head + queue.needed message := if_neg fits
    rw [place_eq] at record tail_eq place_lt ⊢
    obtain ⟨rounds, head_eq⟩ := Nat.exists_eq_succ_of_ne_zero (show head ≠ 0 by
      have := proper.2
      omega)
    have at_zero : wrap queue.ring head (queue.ring - head) = 0 := by
      rw [wrap, if_neg (by omega)]
      omega
    have skip := sqScan_skip sound.numbered (head : Int) (rounds + 1) (queue.ring - head) head_lt
      (by omega) (fun offset offset_lt => by
        rw [wrap, if_pos (by omega)]
        exact skipped (by omega) _ (by omega) (by omega))
      (fun offset offset_lt => by
        rw [at_tail]
        exact fun same => holds.tail_ne (by omega) (Int.ofNat_inj.mp same))
    have found := sqScan_record sound (head : Int) rounds valid place_lt record behind_lt
      holds.tail_lt tail_eq at_tail
    rw [at_zero, show queue.ring - head + (rounds + 1) = queue.ring by omega] at skip
    exact skip.trans found

end Scan

/-! ## Compare-and-swap and copy -/

/-- The nodes that a reader of `message` takes, when the message is the oldest at `head`. -/
def Taken (queue : SqHead) (head : Nat) (message : Message) (node : Nat) : Prop :=
  ∃ offset < extent queue.ring head (queue.needed message), node = wrap queue.ring head offset

/-- The queue with its head moved behind the oldest message. -/
def claimed (queue : SqHead) (head : Nat) (message : Message) : SqHead :=
  { queue with
    headPos := (place queue.ring head (queue.needed message) + queue.needed message : Nat) }

section Claim

variable {rest : List Message} (holds : queue.Holds head dirty (message :: rest))

include holds

/-- Nodes counted from the new head are nodes counted from the old one, once around the ring. -/
theorem Holds.wrap_claimed
    (inside : extent queue.ring head (queue.needed message) + offset < queue.ring) :
    wrap queue.ring (place queue.ring head (queue.needed message) + queue.needed message) offset =
      wrap queue.ring head (extent queue.ring head (queue.needed message) + offset) := by
  obtain ⟨_, proper, _⟩ := holds.stored
  rw [← advance_extent holds.head_lt proper, wrap_advance holds.head_lt.le inside]

theorem Holds.not_taken (inside : offset <
      queue.used (place queue.ring head (queue.needed message) + queue.needed message) rest) :
    ¬ queue.Taken head message (wrap queue.ring
      (place queue.ring head (queue.needed message) + queue.needed message) offset) := by
  rintro ⟨other, other_lt, same⟩
  have room : extent queue.ring head (queue.needed message) +
      queue.used (place queue.ring head (queue.needed message) + queue.needed message) rest <
        queue.ring := holds.room
  rw [holds.wrap_claimed (by omega)] at same
  have offset_eq := wrap_injective (by omega) (by omega) same
  omega

theorem Holds.claim :
    (queue.claimed head message).Holds
      (place queue.ring head (queue.needed message) + queue.needed message)
      (fun node => dirty node ∨ queue.Taken head message node) rest := by
  obtain ⟨_, proper, _, _, later⟩ := holds.stored
  have head_lt := holds.head_lt
  have room : extent queue.ring head (queue.needed message) +
      queue.used (place queue.ring head (queue.needed message) + queue.needed message) rest <
        queue.ring := holds.room
  refine ⟨⟨holds.sound.count_lt, holds.sound.size_lt, holds.sound.nodes_size⟩, holds.quiet,
    place_add_lt proper, rfl, holds.tail_eq, by show queue.used _ _ < queue.ring; omega, ?_, ?_⟩
  · have agree : AgreeOn (fun _ => True) queue (queue.claimed head message) :=
      ⟨rfl, rfl, fun _ _ _ _ => rfl⟩
    exact later.congr agree (place_add_lt proper) (by omega) (fun _ _ => trivial)
  · intro offset (used_le : queue.used _ rest ≤ offset) (offset_lt : offset < queue.ring) clean
    obtain ⟨not_dirty, not_taken⟩ := not_or.mp clean
    by_cases inside : extent queue.ring head (queue.needed message) + offset < queue.ring
    · have node_eq := holds.wrap_claimed inside
      show queue.token (wrap queue.ring _ offset) = 0
      rw [node_eq]
      refine holds.free _ ?_ inside ?_
      · show extent queue.ring head (queue.needed message) + queue.used _ rest ≤ _
        omega
      · rw [← node_eq]
        exact not_dirty
    · refine absurd ⟨extent queue.ring head (queue.needed message) + offset - queue.ring, ?_, ?_⟩
        not_taken
      · omega
      · have end_eq := advance_extent head_lt proper
        show wrap queue.ring _ offset = _
        rw [← end_eq]
        unfold wrap advance
        split <;> split <;> split <;> omega

end Claim

section Record

variable (sound : queue.Sound) (node_le : node + queue.needed message ≤ queue.ring)
  (record : slice queue.nodes.byte (node * queue.sqNodeSize) (message.data.length + 24) =
    message.record)

include sound node_le record

theorem enqueueTime_eq : queue.enqueueTime node = some message.time.bytes := by
  obtain ⟨_, _, time_eq, _⟩ := record_fields record
  have end_le := record_end_le sound node_le
  rw [enqueueTime, sqGetNode_eq, Option.bind_eq_bind, Option.bind_some,
    ByteRegion.read_eq (by omega), time_eq]

theorem copyOut_eq {buf : ByteRegion} (fits : message.data.length ≤ buf.size) :
    queue.copyOut node message.data.length buf =
      some { buf with byte := splice buf.byte 0 message.data } := by
  obtain ⟨_, _, _, data_eq⟩ := record_fields record
  have end_le := record_end_le sound node_le
  rw [copyOut, if_neg (by omega), sqGetNode_eq]
  simp only [Option.bind_eq_bind, Option.bind_some, sqNodeHeadSize, Int.toNat_natCast]
  rw [ByteRegion.read_eq (by omega), Option.bind_some, data_eq,
    ByteRegion.write_eq (by omega)]

end Record

/-! ## Resetting the tokens -/

/-- `after` is `before` with the tokens of the nodes in `range` reset. -/
structure Cleared (range : Nat → Prop) (before after : SqHead) : Prop where
  agree : AgreeOn (fun node => ¬ range node) before after
  token_zero : ∀ node, range node → after.token node = 0
  head_eq : after.headPos = before.headPos
  tail_eq : after.tailPos = before.tailPos
  signal_eq : after.signal = before.signal
  nodes_size : after.nodes.size = before.nodes.size

theorem Cleared.numbered (cleared : Cleared range before after) (numbered : before.Numbered) :
    after.Numbered := by
  refine ⟨?_, ?_⟩
  · rw [cleared.agree.ring_eq]
    exact numbered.ring_lt
  · rw [cleared.nodes_size, cleared.agree.ring_eq, cleared.agree.sqNodeSize_eq]
    exact numbered.nodes_size

theorem Cleared.sound (cleared : Cleared range before after) (sound : before.Sound) :
    after.Sound := by
  refine ⟨?_, ?_, ?_⟩
  · rw [cleared.agree.count_eq]
    exact sound.count_lt
  · rw [cleared.agree.size_eq]
    exact sound.size_lt
  · exact (cleared.numbered sound.numbered).nodes_size

theorem cleared_spliced (queue : SqHead) (node : Nat) :
    Cleared (fun other => other = node) queue
      (queue.spliced (node * queue.sqNodeSize) (le32 0)) := by
  have inside : (le32 0).length ≤ 1 * queue.sqNodeSize := by
    rw [length_le32]
    unfold sqNodeSize sqNodeHeadSize
    omega
  refine ⟨(agreeOn_spliced queue inside).mono ?_, ?_, rfl, rfl, rfl, rfl⟩
  · intro other apart
    omega
  · rintro other rfl
    have copied := slice_splice queue.nodes.byte (other * queue.sqNodeSize) (le32 0)
    exact congrArg readLe32 copied

theorem Cleared.trans {front back : Nat → Prop} {first second third : SqHead}
    (earlier : Cleared front first second) (later : Cleared back second third) :
    Cleared (fun node => front node ∨ back node) first third := by
  refine ⟨?_, ?_, later.head_eq.trans earlier.head_eq, later.tail_eq.trans earlier.tail_eq,
    later.signal_eq.trans earlier.signal_eq, later.nodes_size.trans earlier.nodes_size⟩
  · exact (earlier.agree.mono fun node apart => fun member => apart (.inl member)).trans
      (later.agree.mono fun node apart => fun member => apart (.inr member))
  · intro node member
    by_cases in_back : back node
    · exact later.token_zero node in_back
    · have in_front := member.resolve_right in_back
      rw [later.agree.token_eq in_back]
      exact earlier.token_zero node in_front

theorem sqClear_spec (numbered : queue.Numbered) {len rounds : Nat} (pos_lt : pos < queue.ring)
    (len_lt : len < queue.ring) (len_le : len ≤ rounds) :
    ∃ after, sqClear (wrap queue.ring pos len : Nat) rounds pos queue = some after ∧
      Cleared (fun node => ∃ offset < len, node = wrap queue.ring pos offset) queue after := by
  induction len generalizing pos rounds queue with
  | zero =>
      refine ⟨queue, ?_, ⟨⟨rfl, rfl, fun _ _ _ _ => rfl⟩, ?_, rfl, rfl, rfl, rfl⟩⟩
      · have at_pos : wrap queue.ring pos 0 = pos := if_pos (by omega)
        rw [at_pos]
        cases rounds with
        | zero | succ rounds => exact if_pos rfl
      · rintro node ⟨offset, offset_lt, _⟩
        omega
  | succ len induction =>
      obtain ⟨rounds, rfl⟩ := Nat.exists_eq_add_of_le' len_le
      have first := cleared_spliced queue pos
      have at_pos : wrap queue.ring pos 0 = pos := if_pos (by omega)
      have not_end : ¬ (pos : Int) = (wrap queue.ring pos (len + 1) : Nat) := by
        intro same
        have offset_eq := wrap_injective (by omega) len_lt
          (at_pos.trans (Int.ofNat_inj.mp same))
        omega
      have next_lt : wrap queue.ring pos 1 < queue.ring := wrap_lt pos_lt.le (by omega)
      have next_wrap : ∀ offset ≤ len, wrap queue.ring (wrap queue.ring pos 1) offset =
          wrap queue.ring pos (offset + 1) := by
        intro offset offset_le
        rw [wrap_wrap pos_lt (by omega), Nat.add_comm]
      obtain ⟨after, returned, later⟩ := @induction
        (wrap queue.ring pos 1) (queue.spliced (pos * queue.sqNodeSize) (le32 0))
        (first.numbered numbered) (rounds + len) next_lt (by show len < queue.ring; omega)
        (by omega)
      have write_ok : pos * queue.sqNodeSize + (le32 0).length ≤ queue.nodes.size := by
        have product_le :=
          Nat.mul_le_mul_right queue.sqNodeSize (show pos + 1 ≤ queue.ring by omega)
        rw [Nat.add_mul] at product_le
        rw [length_le32, numbered.nodes_size]
        unfold sqNodeSize sqNodeHeadSize at *
        omega
      refine ⟨after, ?_, ?_⟩
      · rw [← Nat.add_assoc, sqClear, if_neg not_end, sqGetNode_eq]
        simp only [Option.bind_eq_bind, Option.bind_some]
        rw [copyIn_eq write_ok, Option.bind_some, sqAddPos_one (first.numbered numbered) pos_lt,
          Option.bind_some, ← next_wrap len le_rfl]
        exact returned
      · have both := first.trans later
        refine ⟨both.agree.mono ?_, ?_, both.head_eq, both.tail_eq, both.signal_eq,
          both.nodes_size⟩
        · rintro node apart (rfl | ⟨offset, offset_lt, rfl⟩)
          · exact apart ⟨0, by omega, at_pos.symm⟩
          · exact apart ⟨offset + 1, by omega, next_wrap offset offset_lt.le⟩
        · rintro node ⟨offset, offset_lt, rfl⟩
          refine both.token_zero _ ?_
          cases offset with
          | zero => exact .inl at_pos
          | succ offset =>
              exact .inr ⟨offset, by omega, (next_wrap offset (by omega)).symm⟩

theorem clearTokens_spec (sound : queue.Sound) (head_lt : head < queue.ring)
    (proper : Proper queue.ring (queue.needed message))
    (extent_lt : extent queue.ring head (queue.needed message) < queue.ring) :
    ∃ after, queue.clearTokens head
        (place queue.ring head (queue.needed message) + queue.needed message : Nat) =
          some after ∧ Cleared (queue.Taken head message) queue after := by
  have end_eq : wrap queue.ring head (extent queue.ring head (queue.needed message)) =
      place queue.ring head (queue.needed message) + queue.needed message := by
    have advanced := advance_extent head_lt proper
    have end_lt : place queue.ring head (queue.needed message) + queue.needed message <
        queue.ring := place_add_lt proper
    unfold advance at advanced
    unfold wrap
    split at advanced <;> split <;> omega
  obtain ⟨after, returned, cleared⟩ :=
    sqClear_spec sound.numbered head_lt extent_lt (show _ ≤ queue.eleCount + 1 from extent_lt.le)
  rw [end_eq] at returned
  exact ⟨after, returned, cleared⟩

theorem Holds.mono {more : Nat → Prop} (holds : queue.Holds head dirty messages)
    (dirty_more : ∀ node, dirty node → more node) : queue.Holds head more messages :=
  { holds with
    free := fun offset used_le offset_lt clean =>
      holds.free offset used_le offset_lt fun is_dirty => clean (dirty_more _ is_dirty) }

theorem Holds.clear (holds : queue.Holds head dirty messages) (cleared : Cleared range queue after)
    (apart : ∀ offset < queue.used head messages, ¬ range (wrap queue.ring head offset)) :
    after.Holds head (fun node => dirty node ∧ ¬ range node) messages := by
  have agree := cleared.agree
  have used_eq := agree.used_eq head messages
  refine ⟨cleared.sound holds.sound, ?_, ?_, ?_, ?_, ?_, ?_, ?_⟩
  · rw [cleared.signal_eq]
    exact holds.quiet
  · rw [agree.ring_eq]
    exact holds.head_lt
  · rw [cleared.head_eq]
    exact holds.head_eq
  · rw [cleared.tail_eq, agree.ring_eq, agree.blocks_eq]
    exact holds.tail_eq
  · rw [used_eq, agree.ring_eq]
    exact holds.room
  · exact holds.stored.congr agree holds.head_lt holds.room.le apart
  · rw [used_eq, agree.ring_eq]
    intro offset used_le offset_lt clean
    by_cases in_range : range (wrap queue.ring head offset)
    · exact cleared.token_zero _ in_range
    · rw [agree.token_eq in_range]
      exact holds.free offset used_le offset_lt fun is_dirty => clean ⟨is_dirty, in_range⟩

/-! ## The whole call -/

section Call

variable {buf : ByteRegion} {bufSz : Int} (size_ok : ¬ bufSz < 1)

include size_ok

theorem Holds.sqGet_nil (holds : queue.Holds head dirty []) :
    queue.sqGet (some buf) bufSz = some ⟨.empty, some buf, none, queue⟩ := by
  simp [sqGet, if_neg size_ok, holds.scan_nil]

variable {rest : List Message} (holds : queue.Holds head dirty (message :: rest))

include holds

/-- A message that is longer than the buffer: the head moves on and the tokens stay. -/
theorem Holds.sqGet_exceeds (long : bufSz < message.data.length) :
    queue.sqGet (some buf) bufSz =
      some ⟨.exceeds, some buf, some message.time.bytes, queue.claimed head message⟩ := by
  obtain ⟨_, proper, _, record, _⟩ := holds.stored
  have swapped : queue.casHeadPos head
      (place queue.ring head (queue.needed message) + queue.needed message : Nat) =
        some (queue.claimed head message) := if_pos holds.head_eq
  have timed := enqueueTime_eq holds.claim.sound (place_add_lt proper).le record
  simp only [sqGet, if_neg size_ok, Option.bind_eq_bind]
  rw [holds.scan_cons, Option.bind_some, holds.head_eq]
  dsimp only
  rw [swapped, Option.bind_some, timed, Option.bind_some, if_pos long]
  rfl

/-- A message that the buffer holds: it is copied, and the tokens of its nodes are reset. -/
theorem Holds.sqGet_taken (short : (message.data.length : Int) ≤ bufSz)
    (bufSz_le : bufSz ≤ buf.size) :
    ∃ next, queue.sqGet (some buf) bufSz =
        some ⟨.taken message.data.length, some { buf with byte := splice buf.byte 0 message.data },
          some message.time.bytes, next⟩ ∧
      Cleared (queue.Taken head message) (queue.claimed head message) next ∧
      next.Holds (place queue.ring head (queue.needed message) + queue.needed message)
        (fun node => dirty node ∧ ¬ queue.Taken head message node) rest := by
  obtain ⟨_, proper, _, record, _⟩ := holds.stored
  have claimed := holds.claim
  have node_le : place queue.ring head (queue.needed message) + queue.needed message ≤
      queue.ring := (place_add_lt proper).le
  have extent_lt : extent queue.ring head (queue.needed message) < queue.ring := by
    have room : extent queue.ring head (queue.needed message) + queue.used _ rest <
      queue.ring := holds.room
    omega
  obtain ⟨next, returned, cleared⟩ :
      ∃ next, (queue.claimed head message).clearTokens head
          (place queue.ring head (queue.needed message) + queue.needed message : Nat) =
            some next ∧ Cleared (queue.Taken head message) (queue.claimed head message) next :=
    clearTokens_spec claimed.sound holds.head_lt proper extent_lt
  have emptied := claimed.clear cleared fun offset offset_lt => holds.not_taken offset_lt
  refine ⟨next, ?_, cleared, emptied.mono ?_⟩
  · have swapped : queue.casHeadPos head
        (place queue.ring head (queue.needed message) + queue.needed message : Nat) =
          some (queue.claimed head message) := if_pos holds.head_eq
    have copied := copyOut_eq claimed.sound node_le record
      (show message.data.length ≤ buf.size by omega)
    have timed := enqueueTime_eq claimed.sound node_le record
    simp only [sqGet, if_neg size_ok, Option.bind_eq_bind]
    rw [holds.scan_cons, Option.bind_some, holds.head_eq]
    dsimp only
    rw [swapped, Option.bind_some, timed, Option.bind_some, if_neg (by omega), copied,
      Option.bind_some, returned, Option.bind_some]
    rfl
  · rintro node ⟨is_dirty | taken, not_taken⟩
    · exact ⟨is_dirty, not_taken⟩
    · exact absurd taken not_taken

end Call

end SqHead
end Spp
