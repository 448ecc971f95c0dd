import Spp.ShmQueue.Nodes

/-!
# What the ring holds

`Holds queue head dirty messages` is the representation invariant: from the node `head` on, the ring
holds the records of `messages` one after the other, and no other node shows a token, except for
the `dirty` nodes, whose tokens a reader has not reset yet.  `sq_put` and the steps of `sq_get` are
then described by what they do to it.
-/

namespace Spp
namespace SqHead

open CircularBuffer SegmentRing

/-- The nodes of each message. -/
def blocks (queue : SqHead) (messages : List Message) : List Nat := messages.map queue.needed

/-- Number of nodes from the position `pos` on that the messages take. -/
def used (queue : SqHead) (pos : Nat) (messages : List Message) : Nat :=
  span queue.ring pos (queue.blocks messages)

/-- From the node `pos` on, the ring holds the records of the messages; the nodes that a record
skips show no token. -/
def Stored (queue : SqHead) : Nat → List Message → Prop
  | _, [] => True
  | pos, message :: rest =>
      message.Valid ∧ Proper queue.ring (queue.needed message) ∧
        (queue.ring ≤ pos + queue.needed message →
          ∀ node, pos ≤ node → node < queue.ring → queue.token node = 0) ∧
        slice queue.nodes.byte
            (place queue.ring pos (queue.needed message) * queue.sqNodeSize)
            (message.data.length + 24) = message.record ∧
        Stored queue (place queue.ring pos (queue.needed message) + queue.needed message) rest

variable {pos offset : Nat} {messages : List Message}

theorem Stored.proper {queue : SqHead} (stored : queue.Stored pos messages) :
    ∀ nr ∈ queue.blocks messages, Proper queue.ring nr := by
  induction messages generalizing pos with
  | nil => simp [blocks]
  | cons message rest induction =>
      obtain ⟨_, proper, _, _, later⟩ := stored
      intro nr member
      obtain rfl | member := List.mem_cons.mp member
      · exact proper
      · exact induction later nr member

theorem stored_append (queue : SqHead) (pos : Nat) (left right : List Message) :
    queue.Stored pos (left ++ right) ↔
      queue.Stored pos left ∧ queue.Stored (stop queue.ring pos (queue.blocks left)) right := by
  induction left generalizing pos with
  | nil => simp [Stored, blocks, stop]
  | cons message rest induction =>
      simp only [List.cons_append, Stored, induction, blocks, List.map_cons, stop]
      tauto

theorem Stored.congr {kept : Nat → Prop} {first second : SqHead} (agree : AgreeOn kept first second)
    (pos_lt : pos < first.ring) (room : first.used pos messages ≤ first.ring)
    (live : ∀ offset < first.used pos messages, kept (wrap first.ring pos offset))
    (stored : first.Stored pos messages) : second.Stored pos messages := by
  induction messages generalizing pos with
  | nil => trivial
  | cons message rest induction =>
      obtain ⟨valid, proper, skipped, record, later⟩ := stored
      have used_eq : first.used pos (message :: rest) =
          extent first.ring pos (first.needed message) +
            first.used (place first.ring pos (first.needed message) + first.needed message)
              rest := rfl
      simp only [Stored, agree.ring_eq, agree.needed_eq]
      refine ⟨valid, proper, ?_, ?_, ?_⟩
      · intro reaches node pos_le node_lt
        have node_eq : node = wrap first.ring pos (node - pos) := by
          rw [wrap, if_pos (by omega)]
          omega
        rw [agree.token_eq ?_]
        · exact skipped reaches node pos_le node_lt
        · rw [node_eq]
          apply live
          rw [used_eq, extent, if_neg (by omega)]
          omega
      · rw [← record]
        have inside : 0 + (message.data.length + 24) ≤
            first.needed message * first.sqNodeSize := by
          have fits := record_le_nodes first message
          omega
        refine agree.slice_eq (first.needed message) inside ?_
        intro index index_lt
        obtain ⟨offset, offset_lt, node_eq⟩ := exists_wrap_of_place pos_lt index_lt
        rw [node_eq]
        exact live offset (by omega)
      · refine induction (place_add_lt proper) (by omega) ?_ later
        intro offset offset_lt
        rw [← advance_extent pos_lt proper, wrap_advance pos_lt.le (by omega)]
        exact live _ (by omega)

/-- The queue memory holds exactly the messages `messages`, from the node `head` on. -/
structure Holds (queue : SqHead) (head : Nat) (dirty : Nat → Prop) (messages : List Message) :
    Prop where
  sound : queue.Sound
  quiet : queue.signal.dataSignum = 0
  head_lt : head < queue.ring
  head_eq : queue.headPos = head
  tail_eq : queue.tailPos = (stop queue.ring head (queue.blocks messages) : Nat)
  room : queue.used head messages < queue.ring
  stored : queue.Stored head messages
  free : ∀ offset, queue.used head messages ≤ offset → offset < queue.ring →
    ¬ dirty (wrap queue.ring head offset) → queue.token (wrap queue.ring head offset) = 0

/-- Where the last message ends. -/
def tail (queue : SqHead) (head : Nat) (messages : List Message) : Nat :=
  stop queue.ring head (queue.blocks messages)

section AgreeOn

variable {kept : Nat → Prop} {first second : SqHead} (agree : AgreeOn kept first second)

include agree

theorem AgreeOn.blocks_eq (messages : List Message) :
    second.blocks messages = first.blocks messages :=
  List.map_congr_left fun message _ => agree.needed_eq message

theorem AgreeOn.used_eq (pos : Nat) (messages : List Message) :
    second.used pos messages = first.used pos messages := by
  rw [used, agree.ring_eq, agree.blocks_eq, used]

theorem AgreeOn.tail_eq (pos : Nat) (messages : List Message) :
    second.tail pos messages = first.tail pos messages := by
  rw [tail, agree.ring_eq, agree.blocks_eq, tail]

end AgreeOn

section Tail

variable {queue : SqHead} {head : Nat} {dirty : Nat → Prop}
  (holds : queue.Holds head dirty messages)

include holds

theorem Holds.tail_lt : queue.tail head messages < queue.ring :=
  stop_lt holds.head_lt holds.stored.proper

theorem Holds.tail_eq_advance :
    queue.tail head messages = advance queue.ring head (queue.used head messages) :=
  (advance_span holds.head_lt holds.stored.proper holds.room).symm

theorem Holds.wrap_tail (inside : queue.used head messages + offset < queue.ring) :
    wrap queue.ring (queue.tail head messages) offset =
      wrap queue.ring head (queue.used head messages + offset) := by
  rw [holds.tail_eq_advance, wrap_advance holds.head_lt.le inside]

theorem Holds.tail_ne (inside : offset < queue.used head messages) :
    queue.tail head messages ≠ wrap queue.ring head offset := by
  intro same
  have room := holds.room
  have tail_lt := holds.tail_lt
  have at_tail : wrap queue.ring (queue.tail head messages) 0 =
      wrap queue.ring head (queue.used head messages) := holds.wrap_tail room
  rw [wrap, if_pos (by omega)] at at_tail
  have offset_eq := wrap_injective room (by omega) (at_tail.symm.trans same)
  omega

end Tail

end SqHead
end Spp
