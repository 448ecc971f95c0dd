import Spp.ShmQueue.Invariant

/-!
# Putting a message

`sq_put` finds room exactly when the nodes that the message takes, with those it skips, leave one
node of the ring unused.  It then appends the message, provided that none of these nodes still shows
an old token.
-/

namespace Spp
namespace SqHead

open CircularBuffer SegmentRing

/-- The queue with one more message. -/
def appended (queue : SqHead) (tail : Nat) (message : Message) : SqHead :=
  { queue.spliced (place queue.ring tail (queue.needed message) * queue.sqNodeSize)
      message.record with
    tailPos := (place queue.ring tail (queue.needed message) + queue.needed message : Nat) }

variable {queue : SqHead} {message : Message} {data : List UInt8} {datalen : Int}

theorem spliced_spliced (queue : SqHead) {offset next : Nat} (front back : List UInt8)
    (adjacent : next = offset + front.length) :
    (queue.spliced offset front).spliced next back = queue.spliced offset (front ++ back) := by
  subst adjacent
  simp only [spliced, splice_splice]

theorem putNode_eq (sound : queue.Sound) (quiet : queue.signal.dataSignum = 0) {node : Nat}
    {newTail : Int} (inside : node + queue.needed message ≤ queue.ring)
    (length_eq : datalen = message.data.length)
    (data_eq : data.take message.data.length = message.data) (valid : message.Valid) :
    queue.putNode node newTail data datalen message.time =
      some (.done [], { queue.spliced (node * queue.sqNodeSize) message.record with
        tailPos := newTail }) := by
  subst length_eq
  have end_le := record_end_le sound inside
  have long : ¬ data.length < message.data.length := by
    have taken := congrArg List.length data_eq
    rw [List.length_take] at taken
    omega
  have length_u32 : u32 (message.data.length : Int) = message.data.length := by
    obtain ⟨_, length_le⟩ := valid
    unfold u32
    omega
  have time_len := message.time.length_eq
  rw [putNode, Int.toNat_natCast, if_neg long, sqGetNode_eq, length_u32, data_eq]
  simp only [Option.bind_eq_bind, Option.bind_some]
  rw [copyIn_eq (by rw [length_le32]; omega), Option.bind_some,
    copyIn_eq (by rw [length_le32]; exact (show _ ≤ queue.nodes.size by omega)), Option.bind_some,
    copyIn_eq (by rw [time_len]; exact (show _ ≤ queue.nodes.size by omega)), Option.bind_some,
    copyIn_eq (by exact (show _ ≤ queue.nodes.size by unfold sqNodeHeadSize; omega)),
    Option.bind_some, spliced_spliced _ _ _ (by rw [time_len]; rfl),
    spliced_spliced _ _ _ (by rw [length_le32]), spliced_spliced _ _ _ (by rw [length_le32])]
  have record_eq : le32 startToken ++
      (le32 message.data.length ++ (message.time.bytes ++ message.data)) = message.record := by
    simp only [Message.record, List.append_assoc]
  rw [record_eq, signalWaiting, if_neg (by exact not_not.mpr quiet)]
  rfl

/-- `sq_put` of a valid message: it is stored exactly when its nodes leave the ring unfilled. -/
theorem sqPut_eq {head : Nat} {dirty : Nat → Prop} {messages : List Message}
    (holds : queue.Holds head dirty messages) (length_eq : datalen = message.data.length)
    (data_eq : data.take message.data.length = message.data) (valid : message.Valid) :
    queue.sqPut (some data) datalen message.time =
      if queue.used head messages +
          extent queue.ring (queue.tail head messages) (queue.needed message) < queue.ring then
        some (.done [], queue.appended (queue.tail head messages) message)
      else
        some (.notEnough, queue) := by
  have sound := holds.sound
  have room := holds.room
  have head_lt := holds.head_lt
  have tail_lt := holds.tail_lt
  have tail_adv := holds.tail_eq_advance
  have nr_pos := needed_pos queue message
  have at_tail : queue.tailPos = (queue.tail head messages : Nat) := holds.tail_eq
  have nr_eq : queue.sqNumNeededNodes datalen = queue.needed message := by
    rw [length_eq]
    exact sqNumNeededNodes_eq sound valid
  have arguments_ok : ¬ (datalen ≤ 0 ∨ datalen > maxSqDataLength) := by
    obtain ⟨length_pos, length_le⟩ := valid
    unfold maxSqDataLength
    omega
  have ring_eq : queue.ring = queue.eleCount + 1 := rfl
  simp only [sqPut, Option.bind_eq_bind]
  rw [if_neg arguments_ok, nr_eq, holds.head_eq,
    sqEmptyNodes2_eq sound head_lt room tail_lt tail_adv at_tail, Option.bind_some]
  by_cases few : queue.eleCount - queue.used head messages < queue.needed message
  · rw [if_pos (by omega), if_neg]
    · rfl
    · unfold extent
      split <;> omega
  · rw [if_neg (by omega), at_tail, sqAddPos_eq sound tail_lt (by omega), Option.bind_some]
    by_cases reaches : queue.ring ≤ queue.tail head messages + queue.needed message
    · have wrapped : wrap queue.ring (queue.tail head messages) (queue.needed message) <
          queue.tail head messages := by
        rw [wrap, if_neg (by omega)]
        omega
      have room_eq : int32 ((head : Int) - 1) = some ((head : Int) - 1) :=
        if_pos (by have := sound.count_lt; omega)
      have extent_eq : extent queue.ring (queue.tail head messages) (queue.needed message) =
          queue.ring - queue.tail head messages + queue.needed message := if_neg (by omega)
      have place_eq : place queue.ring (queue.tail head messages) (queue.needed message) = 0 :=
        if_neg (by omega)
      rw [if_pos (by omega), room_eq, Option.bind_some]
      unfold advance at tail_adv
      by_cases tight : head ≤ queue.needed message
      · rw [if_pos (by omega), if_neg (by split at tail_adv <;> omega)]
        rfl
      · rw [if_neg (by omega), if_pos (by split at tail_adv <;> omega),
          show (0 : Int) = ((0 : Nat) : Int) from rfl,
          putNode_eq sound holds.quiet (by omega) length_eq data_eq valid, appended, place_eq,
          Nat.zero_add]
    · have kept : wrap queue.ring (queue.tail head messages) (queue.needed message) =
          queue.tail head messages + queue.needed message := by
        rw [wrap, if_pos (by omega)]
      have extent_eq : extent queue.ring (queue.tail head messages) (queue.needed message) =
          queue.needed message := if_pos (by omega)
      have place_eq : place queue.ring (queue.tail head messages) (queue.needed message) =
          queue.tail head messages := if_pos (by omega)
      rw [kept, if_neg (by omega), if_pos (by omega),
        putNode_eq sound holds.quiet (by omega) length_eq data_eq valid, appended, place_eq]

theorem agreeOn_appended (queue : SqHead) (tail : Nat) (message : Message) :
    AgreeOn (fun other => other < place queue.ring tail (queue.needed message) ∨
      place queue.ring tail (queue.needed message) + queue.needed message ≤ other) queue
      (queue.appended tail message) := by
  have inside : message.record.length ≤ queue.needed message * queue.sqNodeSize := by
    rw [Message.length_record]
    exact record_le_nodes queue message
  exact ⟨rfl, rfl, (agreeOn_spliced queue inside).byte_eq⟩

section Append

variable {head : Nat} {dirty : Nat → Prop} {messages : List Message}
  (holds : queue.Holds head dirty messages) (fits : queue.used head messages +
    extent queue.ring (queue.tail head messages) (queue.needed message) < queue.ring)

include holds fits

/-- The nodes written for a message are neither in use nor behind the message. -/
theorem Holds.apart_of_place {offset : Nat} (offset_lt : offset < queue.ring)
    (apart : offset < queue.used head messages ∨ queue.used head messages +
      extent queue.ring (queue.tail head messages) (queue.needed message) ≤ offset) :
    wrap queue.ring head offset <
        place queue.ring (queue.tail head messages) (queue.needed message) ∨
      place queue.ring (queue.tail head messages) (queue.needed message) +
        queue.needed message ≤ wrap queue.ring head offset := by
  by_contra within
  obtain ⟨index, index_eq⟩ := Nat.exists_eq_add_of_le
    (show place queue.ring (queue.tail head messages) (queue.needed message) ≤
      wrap queue.ring head offset by omega)
  obtain ⟨inner, inner_lt, inner_eq⟩ :=
    exists_wrap_of_place holds.tail_lt (show index < queue.needed message by omega)
  rw [holds.wrap_tail (by omega)] at inner_eq
  have offset_eq := wrap_injective offset_lt (by omega) (index_eq.trans inner_eq)
  omega

/-- Storing a message appends it, provided that the nodes it skips are clean. -/
theorem Holds.appendOver (valid : message.Valid)
    (clean : queue.ring ≤ queue.tail head messages + queue.needed message →
      ∀ node, queue.tail head messages ≤ node → node < queue.ring → ¬ dirty node) :
    (queue.appended (queue.tail head messages) message).Holds head dirty
      (messages ++ [message]) := by
  have tail_lt := holds.tail_lt
  have agree := agreeOn_appended queue (queue.tail head messages) message
  have used_eq : queue.used head (messages ++ [message]) = queue.used head messages +
      extent queue.ring (queue.tail head messages) (queue.needed message) := by
    simp [used, blocks, span_append, span, tail]
  have proper : Proper queue.ring (queue.needed message) := by
    refine ⟨needed_pos queue message, ?_⟩
    unfold extent at fits
    split at fits <;> omega
  refine ⟨⟨holds.sound.count_lt, holds.sound.size_lt, holds.sound.nodes_size⟩, holds.quiet,
    holds.head_lt, holds.head_eq, ?_, ?_, ?_, ?_⟩
  · show ((place queue.ring (queue.tail head messages) (queue.needed message) +
      queue.needed message : Nat) : Int) =
        (stop queue.ring head (queue.blocks (messages ++ [message])) : Nat)
    rw [blocks, List.map_append, stop_append]
    rfl
  · show queue.used head (messages ++ [message]) < queue.ring
    omega
  · refine (stored_append _ _ _ _).mpr ⟨?_, valid, proper, ?_, ?_, trivial⟩
    · refine holds.stored.congr agree holds.head_lt holds.room.le ?_
      intro offset offset_lt
      exact holds.apart_of_place fits (by have := holds.room; omega) (.inl offset_lt)
    · intro (reaches : queue.ring ≤ queue.tail head messages + queue.needed message) node
        (tail_le : queue.tail head messages ≤ node) (node_lt : node < queue.ring)
      have node_eq : node = wrap queue.ring (queue.tail head messages)
          (node - queue.tail head messages) := by
        rw [wrap, if_pos (by omega)]
        omega
      have extent_eq : extent queue.ring (queue.tail head messages) (queue.needed message) =
          queue.ring - queue.tail head messages + queue.needed message := if_neg (by omega)
      have place_eq : place queue.ring (queue.tail head messages) (queue.needed message) = 0 :=
        if_neg (by omega)
      rw [agree.token_eq (.inr (by rw [place_eq]; omega)), node_eq, holds.wrap_tail (by omega)]
      refine holds.free _ (by omega) (by omega) ?_
      rw [← holds.wrap_tail (by omega), ← node_eq]
      exact clean reaches node tail_le node_lt
    · have copied := slice_splice queue.nodes.byte
        (place queue.ring (queue.tail head messages) (queue.needed message) * queue.sqNodeSize)
        message.record
      rw [Message.length_record] at copied
      exact copied
  · intro offset (used_le : queue.used head (messages ++ [message]) ≤ offset)
      (offset_lt : offset < queue.ring) not_dirty
    have same := agree.token_eq (holds.apart_of_place fits offset_lt (.inr (by omega)))
    refine same.trans ?_
    exact holds.free offset (by omega) offset_lt not_dirty

theorem Holds.append (valid : message.Valid)
    (clean : ∀ offset < extent queue.ring (queue.tail head messages) (queue.needed message),
      ¬ dirty (wrap queue.ring (queue.tail head messages) offset)) :
    (queue.appended (queue.tail head messages) message).Holds head dirty
      (messages ++ [message]) := by
  apply holds.appendOver fits valid
  intro reaches node tail_le node_lt
  have offset_lt : node - queue.tail head messages <
      extent queue.ring (queue.tail head messages) (queue.needed message) := by
    rw [extent, if_neg (by omega)]
    omega
  have not_dirty := clean _ offset_lt
  rw [wrap, if_pos (by omega), Nat.add_sub_cancel' tail_le] at not_dirty
  exact not_dirty

end Append

end SqHead
end Spp
