import Spp.ShmQueue.Get

/-!
# `sq_get` on corrupted nodes

The header of `shm_queue.h` promises that corrupted elements are skipped.  Here the nodes hold
arbitrary bytes and only the positions are trusted.
-/

namespace Spp
namespace SqHead

open CircularBuffer

/-- A queue whose dimensions and positions are valid, with any bytes in its nodes. -/
structure Positioned (queue : SqHead) : Prop where
  size_range : 0 < queue.eleSize ∧ queue.eleSize < 2147483648
  count_range : 0 < queue.eleCount ∧ queue.eleCount < 2147483648
  head_range : 0 ≤ queue.headPos ∧ queue.headPos ≤ queue.eleCount
  tail_range : 0 ≤ queue.tailPos ∧ queue.tailPos ≤ queue.eleCount
  nodes_size : queue.nodes.size = queue.ring * queue.sqNodeSize

/-- Number of nodes on the circular path from `head_pos` to `tail_pos`. -/
def pathLength (queue : SqHead) : Nat :=
  distance queue.ring queue.headPos.toNat queue.tailPos.toNat

/-- A position on the circular path from `head_pos` to `tail_pos`, both ends included. -/
def OnPath (queue : SqHead) (pos : Int) : Prop :=
  ∃ index ≤ queue.pathLength, pos = (wrap queue.ring queue.headPos.toNat index : Nat)

/-- `sq_get` returns without an access outside the nodes or the buffer and without an overflow; it
leaves `head_pos` on the path to `tail_pos` and writes at most `bufSz` bytes of the buffer. -/
def GetContained (queue : SqHead) (buf : Option ByteRegion) (bufSz : Int) : Prop :=
  ∃ result, queue.sqGet buf bufSz = some result ∧
    0 ≤ result.queue.headPos ∧ result.queue.headPos ≤ queue.eleCount ∧
    queue.OnPath result.queue.headPos ∧
    ∀ before after, buf = some before → result.buf = some after →
      after.size = before.size ∧
        ∀ index : Nat, bufSz ≤ index → after.byte index = before.byte index

/-! ## Which contents are harmless -/

/-- The `datalen` of a node. -/
def storedDatalen (queue : SqHead) (node : Nat) : Int :=
  i32 (readLe32 (slice queue.nodes.byte (node * queue.sqNodeSize + 4) 4))

/-- A node that the scan takes for a message, with `left` nodes up to the tail. -/
def Starts (queue : SqHead) (node left : Nat) : Prop :=
  queue.token node = startToken ∧ queue.sqNumNeededNodes (queue.storedDatalen node) ≤ left

instance (queue : SqHead) (node left : Nat) : Decidable (queue.Starts node left) :=
  inferInstanceAs (Decidable (_ ∧ _))

/-- A message that is refused because of its length, or whose payload lies in the node array. -/
def Copyable (queue : SqHead) (bufSz head datalen : Int) : Prop :=
  bufSz < datalen ∨
    0 ≤ datalen ∧ head * queue.sqNodeSize + sqNodeHeadSize + datalen ≤ queue.nodes.size

instance (queue : SqHead) (bufSz head datalen : Int) :
    Decidable (queue.Copyable bufSz head datalen) :=
  inferInstanceAs (Decidable (_ ∨ _ ∧ _))

variable {queue : SqHead} {bufSz head datalen : Int} {pos left index node : Nat} {exit : ScanExit}
  {buf : ByteRegion}

theorem Copyable.nonneg (copyable : queue.Copyable bufSz head datalen) (size_ok : ¬ bufSz < 1) :
    0 ≤ datalen := by
  obtain long | ⟨nonneg, _⟩ := copyable
  · omega
  · exact nonneg

/-- On the path of `left` nodes from `pos` on, up to the first node taken for a message: the macros
do not overflow at a node with a token, and the node taken can be copied. -/
def Harmless (queue : SqHead) (bufSz : Int) (pos left : Nat) : Prop :=
  ∀ index < left,
    (∀ earlier < index, ¬ queue.Starts (wrap queue.ring pos earlier) (left - earlier)) →
    queue.token (wrap queue.ring pos index) = startToken →
      wrap queue.ring pos index + queue.eleCount < 2147483648 ∧
        (queue.Starts (wrap queue.ring pos index) (left - index) →
          queue.Copyable bufSz (wrap queue.ring pos index : Nat)
            (queue.storedDatalen (wrap queue.ring pos index)))

instance (queue : SqHead) (bufSz : Int) (pos left : Nat) :
    Decidable (queue.Harmless bufSz pos left) :=
  inferInstanceAs (Decidable (∀ index < left, (∀ earlier < index, ¬ _) → _ → _ ∧ (_ → _)))

/-- The contents that `sq_get` survives: the queue is empty, or its nodes have an `int` for an index
and those on the path to the tail are harmless. -/
def Benign (queue : SqHead) (bufSz : Int) : Prop :=
  queue.headPos = queue.tailPos ∨
    queue.eleCount + 1 < 2147483648 ∧
      queue.Harmless bufSz queue.headPos.toNat queue.pathLength

instance (queue : SqHead) (bufSz : Int) : Decidable (queue.Benign bufSz) :=
  inferInstanceAs (Decidable (_ ∨ _ ∧ _))

theorem harmless_succ (pos_lt : pos < queue.ring) (left_lt : left + 1 < queue.ring) :
    queue.Harmless bufSz pos (left + 1) ↔
      (queue.token pos = startToken → pos + queue.eleCount < 2147483648 ∧
        (queue.Starts pos (left + 1) → queue.Copyable bufSz pos (queue.storedDatalen pos))) ∧
      (¬ queue.Starts pos (left + 1) → queue.Harmless bufSz (wrap queue.ring pos 1) left) := by
  have at_pos := wrap_zero pos_lt
  have next_wrap : ∀ offset ≤ left, wrap queue.ring (wrap queue.ring pos 1) offset =
      wrap queue.ring pos (offset + 1) := by
    intro offset offset_le
    rw [wrap_wrap pos_lt (by omega), Nat.add_comm]
  constructor
  · intro harmless
    constructor
    · have first := harmless 0 (Nat.succ_pos left) (fun earlier lt => absurd lt (Nat.not_lt_zero _))
      rw [at_pos, Nat.sub_zero] at first
      exact first
    · intro not_starts index index_lt unstarted
      rw [next_wrap index index_lt.le]
      have later := harmless (index + 1) (by omega) ?_
      · rw [show left + 1 - (index + 1) = left - index by omega] at later
        exact later
      · intro earlier earlier_lt
        cases earlier with
        | zero =>
            rw [at_pos, Nat.sub_zero]
            exact not_starts
        | succ earlier =>
            have before := unstarted earlier (by omega)
            rw [next_wrap earlier (by omega)] at before
            rw [show left + 1 - (earlier + 1) = left - earlier by omega]
            exact before
  · rintro ⟨first, later⟩ index index_lt unstarted
    cases index with
    | zero =>
        rw [at_pos, Nat.sub_zero]
        exact first
    | succ index =>
        have not_starts := unstarted 0 (Nat.succ_pos index)
        rw [at_pos, Nat.sub_zero] at not_starts
        have rest := later not_starts index (by omega) ?_
        · rw [next_wrap index (by omega)] at rest
          rw [show left + 1 - (index + 1) = left - index by omega]
          exact rest
        · intro earlier earlier_lt
          have before := unstarted (earlier + 1) (by omega)
          rw [show left + 1 - (earlier + 1) = left - earlier by omega] at before
          rw [next_wrap earlier (by omega)]
          exact before

/-! ## The scan, node by node -/

theorem tailPos_ne (left_lt : left < queue.ring)
    (at_tail : queue.tailPos = (wrap queue.ring pos left : Nat)) (left_pos : 0 < left) :
    queue.tailPos ≠ pos := by
  rw [at_tail]
  unfold wrap
  split <;> omega

section Step

variable (numbered : queue.Numbered) (oldHead : Int) (rounds : Nat) (pos_lt : pos < queue.ring)
  (left_lt : left < queue.ring) (at_tail : queue.tailPos = (wrap queue.ring pos left : Nat))
  (left_pos : 0 < left) (shows : queue.token pos = startToken)

include numbered pos_lt left_lt at_tail left_pos shows

/-- At a node with a token the scan reads the length and counts the nodes up to the tail. -/
theorem sqScan_token :
    queue.sqScan oldHead (rounds + 1) pos =
      (queue.sqUsedNodes2 pos).bind fun usedNodes =>
        if usedNodes < queue.sqNumNeededNodes (queue.storedDatalen pos) then
          queue.sqScan oldHead rounds (wrap queue.ring pos 1 : Nat)
        else
          (queue.sqAddPos pos (queue.sqNumNeededNodes (queue.storedDatalen pos))).bind
            fun newHead =>
            some (.found pos newHead (queue.storedDatalen pos)) := by
  have token_read := read_header numbered pos_lt 0 (by omega)
  have length_read := read_header numbered pos_lt 4 (by omega)
  have token_eq : readLe32 (slice queue.nodes.byte (pos * queue.sqNodeSize) 4) = startToken := shows
  rw [Nat.add_zero] at token_read
  rw [sqScan, if_neg (tailPos_ne left_lt at_tail left_pos), sqGetNode_eq]
  simp only [Option.bind_eq_bind, Option.bind_some]
  rw [token_read, Option.bind_some, if_neg (not_not.mpr token_eq), length_read, Option.bind_some,
    sqAddPos_one numbered pos_lt, Option.bind_some]
  rfl

theorem sqScan_overflow (overflows : 2147483648 ≤ pos + queue.eleCount) :
    queue.sqScan oldHead (rounds + 1) pos = none := by
  have sum_none : int32 ((pos : Int) + queue.eleCount) = none := if_neg (by omega)
  rw [sqScan_token numbered oldHead rounds pos_lt left_lt at_tail left_pos shows, sqUsedNodes2,
    sqEmptyNodes2, sum_none]
  rfl

variable (sum_lt : pos + queue.eleCount < 2147483648)

include sum_lt

theorem sqScan_refused (refused : ¬ queue.Starts pos left) :
    queue.sqScan oldHead (rounds + 1) pos =
      queue.sqScan oldHead rounds (wrap queue.ring pos 1 : Nat) := by
  have many : (left : Int) < queue.sqNumNeededNodes (queue.storedDatalen pos) := by
    by_contra few
    exact refused ⟨shows, not_lt.mp few⟩
  rw [sqScan_token numbered oldHead rounds pos_lt left_lt at_tail left_pos shows,
    sqUsedNodes2_of_lt numbered pos_lt left_lt (wrap_lt pos_lt.le left_lt) rfl at_tail sum_lt,
    Option.bind_some, if_pos many]

theorem sqScan_accepted (starts : queue.Starts pos left) :
    queue.sqScan oldHead (rounds + 1) pos =
      (queue.sqAddPos pos (queue.sqNumNeededNodes (queue.storedDatalen pos))).bind fun newHead =>
        some (.found pos newHead (queue.storedDatalen pos)) := by
  rw [sqScan_token numbered oldHead rounds pos_lt left_lt at_tail left_pos shows,
    sqUsedNodes2_of_lt numbered pos_lt left_lt (wrap_lt pos_lt.le left_lt) rfl at_tail sum_lt,
    Option.bind_some, if_neg (not_lt.mpr starts.2)]

end Step

theorem newHead_of_starts (numbered : queue.Numbered) (size_lt : queue.eleSize < 2147483648)
    (pos_lt : pos < queue.ring) (left_lt : left < queue.ring)
    (sum_lt : pos + queue.eleCount < 2147483648) (starts : queue.Starts pos left)
    (nonneg : 0 ≤ queue.storedDatalen pos) :
    ∃ nr ≤ left, queue.sqAddPos pos (queue.sqNumNeededNodes (queue.storedDatalen pos)) =
      some (wrap queue.ring pos nr : Nat) := by
  obtain ⟨len, len_eq⟩ := Int.eq_ofNat_of_zero_le nonneg
  have len_lt : len < 2147483648 := by
    have datalen_lt := i32_lt (readLe32 (slice queue.nodes.byte (pos * queue.sqNodeSize + 4) 4))
    rw [← storedDatalen, len_eq] at datalen_lt
    exact Int.ofNat_lt.mp datalen_lt
  have few := starts.2
  rw [len_eq, sqNumNeededNodes_of_lt size_lt len_lt] at few ⊢
  have nr_le := Int.ofNat_le.mp few
  refine ⟨_, nr_le, sqAddPos_of_lt numbered pos_lt (by omega) ?_⟩
  unfold ring at left_lt
  omega

/-! ## The whole scan -/

/-- The message found, if any, can be copied or is refused. -/
def ScanExit.Copyable (queue : SqHead) (bufSz : Int) : ScanExit → Prop
  | .found head _ datalen => queue.Copyable bufSz head datalen
  | _ => True

/-- The scan ended on the path of `left` nodes from `pos` on. -/
def ScanExit.Within (queue : SqHead) (pos left : Nat) : ScanExit → Prop
  | .empty => True
  | .skipped newHead => newHead = (wrap queue.ring pos left : Nat)
  | .found head newHead _ =>
      ∃ index nr, index < left ∧ index + nr ≤ left ∧ head = (wrap queue.ring pos index : Nat) ∧
        newHead = (wrap queue.ring pos (index + nr) : Nat)

theorem ScanExit.Within.prev (pos_lt : pos < queue.ring) (left_lt : left + 1 < queue.ring)
    (within : exit.Within queue (wrap queue.ring pos 1) left) :
    exit.Within queue pos (left + 1) := by
  have next_wrap : ∀ offset ≤ left, wrap queue.ring (wrap queue.ring pos 1) offset =
      wrap queue.ring pos (offset + 1) := by
    intro offset offset_le
    rw [wrap_wrap pos_lt (by omega), Nat.add_comm]
  cases exit with
  | empty => trivial
  | skipped newHead =>
      simp only [Within] at within ⊢
      rw [within, next_wrap left le_rfl]
  | found head newHead datalen =>
      obtain ⟨index, nr, index_lt, inside, head_eq, newHead_eq⟩ := within
      refine ⟨index + 1, nr, by omega, by omega, ?_, ?_⟩
      · rw [head_eq, next_wrap index index_lt.le]
      · rw [newHead_eq, next_wrap (index + nr) inside, Nat.add_right_comm]

section Scan

variable (numbered : queue.Numbered) (size_lt : queue.eleSize < 2147483648) (size_ok : ¬ bufSz < 1)
  (oldHead : Int) {rounds : Nat}

include numbered size_lt size_ok

theorem Harmless.scan (pos_lt : pos < queue.ring) (left_lt : left < queue.ring)
    (at_tail : queue.tailPos = (wrap queue.ring pos left : Nat)) (left_lt_rounds : left < rounds)
    (harmless : queue.Harmless bufSz pos left) :
    ∃ exit, queue.sqScan oldHead rounds pos = some exit ∧ exit.Copyable queue bufSz ∧
      exit.Within queue pos left := by
  obtain ⟨rounds, rfl⟩ := Nat.exists_eq_add_of_lt (Nat.zero_lt_of_lt left_lt_rounds)
  rw [Nat.zero_add]
  induction left generalizing pos rounds with
  | zero =>
      have at_pos := wrap_zero pos_lt
      rw [at_pos] at at_tail
      rw [sqScan, if_pos at_tail]
      refine ⟨_, rfl, ?_⟩
      split
      · exact ⟨trivial, trivial⟩
      · refine ⟨trivial, ?_⟩
        rw [ScanExit.Within, at_pos]
  | succ left induction =>
      obtain ⟨first, later⟩ := (harmless_succ pos_lt left_lt).mp harmless
      have not_tail := tailPos_ne left_lt at_tail (Nat.succ_pos left)
      have next_lt : wrap queue.ring pos 1 < queue.ring := wrap_lt pos_lt.le (by omega)
      have next_tail : queue.tailPos = (wrap queue.ring (wrap queue.ring pos 1) left : Nat) := by
        rw [at_tail, wrap_wrap pos_lt (by omega), Nat.add_comm 1]
      obtain ⟨fewer, rfl⟩ := Nat.exists_eq_add_of_lt (show 0 < rounds by omega)
      have go_on : ¬ queue.Starts pos (left + 1) →
          ∃ exit, queue.sqScan oldHead (0 + fewer + 1) (wrap queue.ring pos 1 : Nat) = some exit ∧
            exit.Copyable queue bufSz ∧ exit.Within queue pos (left + 1) := by
        intro refused
        rw [Nat.zero_add]
        obtain ⟨exit, returned, copyable, within⟩ := induction next_lt (by omega) next_tail
          (later refused) fewer (by omega)
        exact ⟨exit, returned, copyable, within.prev pos_lt left_lt⟩
      by_cases shows : queue.token pos = startToken
      · obtain ⟨sum_lt, contained⟩ := first shows
        by_cases starts : queue.Starts pos (left + 1)
        · have copyable := contained starts
          obtain ⟨nr, nr_le, newHead_eq⟩ := newHead_of_starts numbered size_lt pos_lt left_lt
            sum_lt starts (copyable.nonneg size_ok)
          rw [sqScan_accepted numbered oldHead _ pos_lt left_lt at_tail (Nat.succ_pos left) shows
            sum_lt starts, newHead_eq]
          refine ⟨_, rfl, copyable, 0, nr, Nat.succ_pos left, ?_, ?_, ?_⟩
          · rw [Nat.zero_add]
            exact nr_le
          · rw [wrap_zero pos_lt]
          · rw [Nat.zero_add]
        · rw [sqScan_refused numbered oldHead _ pos_lt left_lt at_tail (Nat.succ_pos left) shows
            sum_lt starts]
          exact go_on starts
      · rw [sqScan_next numbered oldHead _ pos_lt not_tail shows]
        exact go_on fun starts => shows starts.1

omit size_lt size_ok in
/-- A scan that returns a message which can be copied has met harmless nodes only. -/
theorem harmless_of_scan (pos_lt : pos < queue.ring) (left_lt : left < queue.ring)
    (at_tail : queue.tailPos = (wrap queue.ring pos left : Nat)) (left_lt_rounds : left < rounds)
    (returned : queue.sqScan oldHead rounds pos = some exit)
    (copyable : exit.Copyable queue bufSz) : queue.Harmless bufSz pos left := by
  induction left generalizing pos rounds with
  | zero =>
      intro index index_lt
      exact absurd index_lt (Nat.not_lt_zero _)
  | succ left induction =>
      obtain ⟨rounds, rfl⟩ := Nat.exists_eq_succ_of_ne_zero (show rounds ≠ 0 by omega)
      have not_tail := tailPos_ne left_lt at_tail (Nat.succ_pos left)
      have next_lt : wrap queue.ring pos 1 < queue.ring := wrap_lt pos_lt.le (by omega)
      have next_tail : queue.tailPos = (wrap queue.ring (wrap queue.ring pos 1) left : Nat) := by
        rw [at_tail, wrap_wrap pos_lt (by omega), Nat.add_comm 1]
      apply (harmless_succ pos_lt left_lt).mpr
      by_cases shows : queue.token pos = startToken
      · by_cases overflows : 2147483648 ≤ pos + queue.eleCount
        · rw [sqScan_overflow numbered oldHead rounds pos_lt left_lt at_tail (Nat.succ_pos left)
            shows overflows] at returned
          cases returned
        · have sum_lt := not_le.mp overflows
          by_cases starts : queue.Starts pos (left + 1)
          · rw [sqScan_accepted numbered oldHead rounds pos_lt left_lt at_tail (Nat.succ_pos left)
              shows sum_lt starts] at returned
            obtain ⟨newHead, _, found⟩ := Option.bind_eq_some_iff.mp returned
            cases found
            exact ⟨fun _ => ⟨sum_lt, fun _ => copyable⟩, fun refused => absurd starts refused⟩
          · rw [sqScan_refused numbered oldHead rounds pos_lt left_lt at_tail (Nat.succ_pos left)
              shows sum_lt starts] at returned
            exact ⟨fun _ => ⟨sum_lt, fun accepted => absurd accepted starts⟩, fun _ =>
              induction next_lt (by omega) next_tail (by omega) returned⟩
      · rw [sqScan_next numbered oldHead rounds pos_lt not_tail shows] at returned
        exact ⟨fun shown => absurd shown shows, fun _ =>
          induction next_lt (by omega) next_tail (by omega) returned⟩

end Scan

/-! ## The whole call -/

/-- `head_pos` changes. -/
def withHead (queue : SqHead) (pos : Int) : SqHead := { queue with headPos := pos }

theorem Numbered.withHead (numbered : queue.Numbered) (pos : Int) : (queue.withHead pos).Numbered :=
  ⟨numbered.ring_lt, numbered.nodes_size⟩

theorem Positioned.numbered (positioned : queue.Positioned)
    (count_lt : queue.eleCount + 1 < 2147483648) : queue.Numbered :=
  ⟨count_lt, positioned.nodes_size⟩

section Path

variable (positioned : queue.Positioned)

include positioned

theorem Positioned.head_lt : queue.headPos.toNat < queue.ring := by
  obtain ⟨_, head_le⟩ := positioned.head_range
  unfold ring
  omega

theorem Positioned.head_eq : queue.headPos = (queue.headPos.toNat : Int) :=
  (Int.toNat_of_nonneg positioned.head_range.1).symm

theorem Positioned.pathLength_lt : queue.pathLength < queue.ring := by
  obtain ⟨_, head_le⟩ := positioned.head_range
  obtain ⟨_, tail_le⟩ := positioned.tail_range
  unfold pathLength distance ring
  split <;> omega

theorem Positioned.tail_eq :
    queue.tailPos = (wrap queue.ring queue.headPos.toNat queue.pathLength : Nat) := by
  obtain ⟨head_nonneg, head_le⟩ := positioned.head_range
  obtain ⟨tail_nonneg, tail_le⟩ := positioned.tail_range
  unfold pathLength distance wrap ring
  split <;> split <;> omega

theorem Positioned.onPath (index_le : index ≤ queue.pathLength) :
    (0 : Int) ≤ (wrap queue.ring queue.headPos.toNat index : Nat) ∧
      ((wrap queue.ring queue.headPos.toNat index : Nat) : Int) ≤ queue.eleCount ∧
      queue.OnPath (wrap queue.ring queue.headPos.toNat index : Nat) := by
  have index_lt := lt_of_le_of_lt index_le positioned.pathLength_lt
  have node_lt := wrap_lt positioned.head_lt.le index_lt
  refine ⟨Int.natCast_nonneg _, ?_, index, index_le, rfl⟩
  unfold ring at node_lt ⊢
  omega

/-- A `sq_get` that does not move the head or write the buffer is contained. -/
theorem Positioned.contained_of_unchanged {buf : Option ByteRegion} {exit : GetExit}
    {time : Option (List UInt8)}
    (returned : queue.sqGet buf bufSz = some ⟨exit, buf, time, queue⟩) :
    queue.GetContained buf bufSz := by
  obtain ⟨nonneg, le_count, on_path⟩ := positioned.onPath (Nat.zero_le queue.pathLength)
  have at_head : (wrap queue.ring queue.headPos.toNat 0 : Nat) = queue.headPos := by
    rw [wrap_zero positioned.head_lt]
    exact positioned.head_eq.symm
  rw [at_head] at nonneg le_count on_path
  refine ⟨_, returned, nonneg, le_count, on_path, ?_⟩
  rintro before after rfl same
  cases same
  exact ⟨rfl, fun _ _ => rfl⟩

/-- The scan that `sq_get` makes, and the tokens that it resets up to a node of the path. -/
theorem Positioned.clearTokens_eq (numbered : queue.Numbered)
    (index_le : index ≤ queue.pathLength) :
    ∃ after, (queue.withHead (wrap queue.ring queue.headPos.toNat index : Nat)).clearTokens
        queue.headPos (wrap queue.ring queue.headPos.toNat index : Nat) = some after ∧
      after.headPos = (wrap queue.ring queue.headPos.toNat index : Nat) := by
  have index_lt := lt_of_le_of_lt index_le positioned.pathLength_lt
  have moved := numbered.withHead (wrap queue.ring queue.headPos.toNat index : Nat)
  obtain ⟨after, returned, cleared⟩ := sqClear_spec moved positioned.head_lt index_lt index_lt.le
  refine ⟨after, ?_, cleared.head_eq⟩
  rw [← positioned.head_eq] at returned
  exact returned

omit positioned in
theorem enqueueTime_of_lt (numbered : queue.Numbered) (node_lt : node < queue.ring) :
    queue.enqueueTime node =
      some (slice queue.nodes.byte (node * queue.sqNodeSize + 8) 16) := by
  have end_le := header_end_le numbered node_lt
  rw [enqueueTime, sqGetNode_eq, Option.bind_eq_bind, Option.bind_some]
  exact ByteRegion.read_eq (by unfold sqNodeHeadSize at end_le; omega)

omit positioned in
/-- A payload in the node array is copied, and the buffer changes only where it is copied to. -/
theorem copyOut_of_le (nonneg : 0 ≤ datalen)
    (inside : (node : Int) * queue.sqNodeSize + sqNodeHeadSize + datalen ≤ queue.nodes.size)
    (short : datalen ≤ bufSz) (bufSz_le : bufSz ≤ buf.size) :
    ∃ filled, queue.copyOut node datalen buf = some filled ∧ filled.size = buf.size ∧
      ∀ index : Nat, bufSz ≤ index → filled.byte index = buf.byte index := by
  obtain ⟨len, rfl⟩ := Int.eq_ofNat_of_zero_le nonneg
  have read_ok : node * queue.sqNodeSize + sqNodeHeadSize + len ≤ queue.nodes.size := by
    exact_mod_cast inside
  have write_ok : 0 + (slice queue.nodes.byte (node * queue.sqNodeSize + sqNodeHeadSize)
      len).length ≤ buf.size := by
    rw [length_slice]
    omega
  refine ⟨{ buf with byte := splice buf.byte 0 (slice queue.nodes.byte
    (node * queue.sqNodeSize + sqNodeHeadSize) len) }, ?_, rfl, ?_⟩
  · rw [copyOut, if_neg (by omega), sqGetNode_eq]
    simp only [Option.bind_eq_bind, Option.bind_some, Int.toNat_natCast]
    rw [ByteRegion.read_eq read_ok, Option.bind_some, ByteRegion.write_eq write_ok]
  · intro index beyond
    have kept := splice_outside buf.byte 0 (slice queue.nodes.byte
      (node * queue.sqNodeSize + sqNodeHeadSize) len) index (.inr (by rw [length_slice]; omega))
    exact kept

theorem Positioned.contained_of_skipped (numbered : queue.Numbered) (size_ok : ¬ bufSz < 1)
    (scan_eq : queue.scan =
      some (.skipped (wrap queue.ring queue.headPos.toNat queue.pathLength : Nat))) :
    queue.GetContained (some buf) bufSz := by
  obtain ⟨after, returned, head_eq⟩ := positioned.clearTokens_eq numbered le_rfl
  have swapped : queue.casHeadPos queue.headPos
      (wrap queue.ring queue.headPos.toNat queue.pathLength : Nat) = some (queue.withHead
        (wrap queue.ring queue.headPos.toNat queue.pathLength : Nat)) := if_pos rfl
  obtain ⟨nonneg, le_count, on_path⟩ := positioned.onPath (le_refl queue.pathLength)
  rw [← head_eq] at nonneg le_count on_path
  refine ⟨⟨.empty, some buf, none, after⟩, ?_, nonneg, le_count, on_path, ?_⟩
  · simp only [SqHead.sqGet, if_neg size_ok, Option.bind_eq_bind]
    rw [scan_eq, Option.bind_some]
    dsimp only
    rw [swapped, Option.bind_some, returned]
    rfl
  · rintro before after same left
    cases same
    cases left
    exact ⟨rfl, fun _ _ => rfl⟩

/-- `sq_get` after a scan that found a message: it is refused, or copied and cleared. -/
theorem Positioned.contained_of_found (numbered : queue.Numbered) (size_ok : ¬ bufSz < 1)
    (bufSz_le : bufSz ≤ buf.size) {nr : Nat} (index_lt : index < queue.pathLength)
    (inside : index + nr ≤ queue.pathLength)
    (scan_eq : queue.scan = some (.found (wrap queue.ring queue.headPos.toNat index : Nat)
      (wrap queue.ring queue.headPos.toNat (index + nr) : Nat) datalen))
    (copyable : queue.Copyable bufSz (wrap queue.ring queue.headPos.toNat index : Nat) datalen) :
    queue.GetContained (some buf) bufSz := by
  have node_lt := wrap_lt positioned.head_lt.le (index_lt.trans positioned.pathLength_lt)
  have nonneg := copyable.nonneg size_ok
  obtain ⟨after, returned, head_eq⟩ := positioned.clearTokens_eq numbered inside
  obtain ⟨head_nonneg, le_count, on_path⟩ := positioned.onPath inside
  have swapped : queue.casHeadPos queue.headPos
      (wrap queue.ring queue.headPos.toNat (index + nr) : Nat) = some (queue.withHead
        (wrap queue.ring queue.headPos.toNat (index + nr) : Nat)) := if_pos rfl
  have moved := numbered.withHead (wrap queue.ring queue.headPos.toNat (index + nr) : Nat)
  obtain ⟨time, timed⟩ : ∃ time, (queue.withHead (wrap queue.ring queue.headPos.toNat
      (index + nr) : Nat)).enqueueTime (wrap queue.ring queue.headPos.toNat index : Nat) =
        some time := ⟨_, enqueueTime_of_lt moved node_lt⟩
  by_cases long : datalen > bufSz
  · refine ⟨⟨.exceeds, some buf, some time, queue.withHead (wrap queue.ring queue.headPos.toNat
      (index + nr) : Nat)⟩, ?_, head_nonneg, le_count, on_path, ?_⟩
    · simp only [SqHead.sqGet, if_neg size_ok, Option.bind_eq_bind]
      rw [scan_eq, Option.bind_some]
      dsimp only
      rw [swapped, Option.bind_some, timed, Option.bind_some, if_pos long]
      rfl
    · rintro before after same left
      cases same
      cases left
      exact ⟨rfl, fun _ _ => rfl⟩
  · obtain ⟨_, payload_le⟩ := copyable.resolve_left long
    obtain ⟨filled, copied, size_eq, beyond⟩ := @copyOut_of_le
      (queue.withHead (wrap queue.ring queue.headPos.toNat (index + nr) : Nat)) bufSz
      datalen _ buf nonneg payload_le (not_lt.mp long) bufSz_le
    rw [← head_eq] at head_nonneg le_count on_path
    refine ⟨⟨.taken datalen, some filled, some time, after⟩, ?_, head_nonneg, le_count, on_path, ?_⟩
    · simp only [SqHead.sqGet, if_neg size_ok, Option.bind_eq_bind]
      rw [scan_eq, Option.bind_some]
      dsimp only
      rw [swapped, Option.bind_some, timed, Option.bind_some, if_neg long, copied,
        Option.bind_some, returned, Option.bind_some]
      rfl
    · rintro before after same left
      cases same
      cases left
      exact ⟨size_eq, beyond⟩

/-- `sq_get` after a scan that stayed on the path and found nothing that cannot be copied. -/
theorem Positioned.contained_of_scan (numbered : queue.Numbered) (size_ok : ¬ bufSz < 1)
    (bufSz_le : bufSz ≤ buf.size) (scan_eq : queue.scan = some exit)
    (copyable : exit.Copyable queue bufSz)
    (within : exit.Within queue queue.headPos.toNat queue.pathLength) :
    queue.GetContained (some buf) bufSz := by
  cases exit with
  | empty =>
      apply positioned.contained_of_unchanged
      simp only [SqHead.sqGet, if_neg size_ok, Option.bind_eq_bind]
      rw [scan_eq]
      rfl
  | skipped newHead =>
      rw [ScanExit.Within] at within
      subst within
      exact positioned.contained_of_skipped numbered size_ok scan_eq
  | found head newHead datalen =>
      obtain ⟨index, nr, index_lt, inside, rfl, rfl⟩ := within
      exact positioned.contained_of_found numbered size_ok bufSz_le index_lt inside scan_eq copyable

omit positioned in
theorem payload_of_copyOut {filled : ByteRegion}
    (copied : queue.copyOut head datalen buf = some filled) :
    0 ≤ datalen ∧ head * queue.sqNodeSize + sqNodeHeadSize + datalen ≤ queue.nodes.size := by
  unfold copyOut at copied
  split at copied
  · cases copied
  · rename_i nonneg
    simp only [Option.bind_eq_bind, Option.bind_eq_some_iff] at copied
    obtain ⟨node, node_eq, bytes, read_eq, _⟩ := copied
    unfold sqGetNode at node_eq
    split at node_eq
    · obtain ⟨index, rfl⟩ := Int.eq_ofNat_of_zero_le ‹0 ≤ head›
      obtain ⟨len, rfl⟩ := Int.eq_ofNat_of_zero_le (not_lt.mp nonneg)
      cases node_eq
      unfold ByteRegion.read at read_eq
      split at read_eq
      · rename_i inside
        rw [Int.toNat_natCast, Int.toNat_natCast] at inside
        exact ⟨Int.natCast_nonneg len, by exact_mod_cast inside⟩
      · cases read_eq
    · cases node_eq

omit positioned in
theorem scan_of_sqGet (size_ok : ¬ bufSz < 1) {result : GetResult}
    (returned : queue.sqGet (some buf) bufSz = some result) :
    ∃ exit, queue.scan = some exit ∧ exit.Copyable queue bufSz := by
  simp only [SqHead.sqGet, if_neg size_ok, Option.bind_eq_bind] at returned
  obtain ⟨exit, scan_eq, returned⟩ := Option.bind_eq_some_iff.mp returned
  refine ⟨exit, scan_eq, ?_⟩
  cases exit with
  | empty | skipped newHead => trivial
  | found head newHead datalen =>
      obtain ⟨moved, swapped, returned⟩ := Option.bind_eq_some_iff.mp returned
      have moved_eq : queue.withHead newHead = moved := by
        rw [casHeadPos, if_pos rfl] at swapped
        exact Option.some.inj swapped
      subst moved_eq
      obtain ⟨time, _, returned⟩ := Option.bind_eq_some_iff.mp returned
      by_cases long : datalen > bufSz
      · exact .inl long
      · rw [if_neg long] at returned
        obtain ⟨filled, copied, _⟩ := Option.bind_eq_some_iff.mp returned
        right
        exact payload_of_copyOut copied

omit positioned in
/-- With the largest `ele_count` the scan of a queue that is not empty overflows at once. -/
theorem scan_overflow (overflows : 2147483648 ≤ queue.eleCount + 1)
    (not_empty : queue.headPos ≠ queue.tailPos) : queue.scan = none := by
  have size_none : queue.ringSize = none := by
    rw [ringSize, int32, if_neg]
    omega
  have add_none : ∀ val, queue.sqAddPos queue.headPos val = none := by
    intro val
    rw [sqAddPos, size_none]
    cases int32 (queue.headPos + val) <;> rfl
  have used_none : queue.sqUsedNodes2 queue.headPos = none := by
    rw [sqUsedNodes2, sqEmptyNodes2, size_none]
    cases int32 (queue.headPos + queue.eleCount) with
    | none => rfl
    | some sum =>
        show (do
          let difference ← int32 (sum - queue.tailPos)
          none) >>= _ = none
        cases int32 (sum - queue.tailPos) <;> rfl
  rw [scan, sqScan, if_neg (Ne.symm not_empty)]
  cases queue.sqGetNode queue.headPos with
  | none => rfl
  | some node =>
      simp only [Option.bind_eq_bind, Option.bind_some, add_none, used_none, Option.bind_none]
      cases queue.nodes.read node 4 with
      | none => rfl
      | some token =>
          simp only [Option.bind_some]
          split
          · rfl
          · cases queue.nodes.read (node + 4) 4 <;> rfl

theorem Positioned.benign_of_scan (scan_eq : queue.scan = some exit)
    (copyable : exit.Copyable queue bufSz) : queue.Benign bufSz := by
  by_cases empty : queue.headPos = queue.tailPos
  · exact .inl empty
  · have count_lt : queue.eleCount + 1 < 2147483648 := by
      by_contra overflows
      rw [scan_overflow (not_lt.mp overflows) empty] at scan_eq
      cases scan_eq
    have numbered := positioned.numbered count_lt
    rw [scan, positioned.head_eq] at scan_eq
    have harmless := harmless_of_scan numbered _ positioned.head_lt positioned.pathLength_lt
      positioned.tail_eq positioned.pathLength_lt scan_eq copyable
    exact .inr ⟨count_lt, harmless⟩

theorem Positioned.contained_of_benign (size_ok : ¬ bufSz < 1) (bufSz_le : bufSz ≤ buf.size)
    (benign : queue.Benign bufSz) : queue.GetContained (some buf) bufSz := by
  obtain empty | ⟨count_lt, harmless⟩ := benign
  · apply positioned.contained_of_unchanged
    have scan_eq : queue.scan = some .empty := by
      rw [scan, sqScan, if_pos empty.symm, if_pos rfl]
    simp only [SqHead.sqGet, if_neg size_ok, Option.bind_eq_bind]
    rw [scan_eq]
    rfl
  · have numbered := positioned.numbered count_lt
    obtain ⟨exit, returned, copyable, within⟩ := harmless.scan numbered
      positioned.size_range.2 size_ok queue.headPos positioned.head_lt positioned.pathLength_lt
      positioned.tail_eq positioned.pathLength_lt
    rw [← positioned.head_eq] at returned
    exact positioned.contained_of_scan numbered size_ok bufSz_le returned copyable within

end Path

/-- The buffer is null or empty, or the contents are benign: exactly then `sq_get` is contained. -/
theorem sqGet_contained_iff {queue : SqHead} (positioned : queue.Positioned)
    {buf : Option ByteRegion} {bufSz : Int}
    (bufSz_le : ∀ region, buf = some region → bufSz ≤ region.size) :
    queue.GetContained buf bufSz ↔ buf = none ∨ bufSz < 1 ∨ queue.Benign bufSz := by
  cases buf with
  | none =>
      have returned : queue.sqGet none bufSz = some ⟨.badArgument, none, none, queue⟩ := rfl
      exact ⟨fun _ => .inl rfl, fun _ => positioned.contained_of_unchanged returned⟩
  | some buf =>
      by_cases size_bad : bufSz < 1
      · have returned : queue.sqGet (some buf) bufSz =
            some ⟨.badArgument, some buf, none, queue⟩ := if_pos size_bad
        exact ⟨fun _ => .inr (.inl size_bad), fun _ =>
          positioned.contained_of_unchanged returned⟩
      · constructor
        · rintro ⟨result, returned, _⟩
          obtain ⟨exit, scan_eq, copyable⟩ := scan_of_sqGet size_bad returned
          exact .inr (.inr (positioned.benign_of_scan scan_eq copyable))
        · rintro (none_eq | bad | benign)
          · cases none_eq
          · exact absurd bad size_bad
          · exact positioned.contained_of_benign size_bad (bufSz_le buf rfl) benign

/-! ## Three corrupted queues -/

/-- A queue of three nodes of 32 bytes; `node` shows a token and the length `datalen`. -/
def oneToken (node datalen : Nat) (headPos tailPos : Int) : SqHead :=
  { zeroed 8 2 with
    headPos
    tailPos
    nodes := ⟨96, splice (fun _ => 0) (node * 32) (le32 startToken ++ le32 datalen)⟩ }

theorem positioned_oneToken (node datalen : Nat) {head tail : Nat} (head_le : head ≤ 2)
    (tail_le : tail ≤ 2) : (oneToken node datalen head tail).Positioned := by
  refine ⟨⟨Nat.succ_pos 7, ?_⟩, ⟨Nat.succ_pos 1, ?_⟩, ⟨Int.natCast_nonneg _, ?_⟩,
    ⟨Int.natCast_nonneg _, ?_⟩, rfl⟩
  · exact (show 8 < 2147483648 by decide)
  · exact (show 2 < 2147483648 by decide)
  · exact Int.ofNat_le.mpr head_le
  · exact Int.ofNat_le.mpr tail_le

/-- A length far larger than the queue is skipped. -/
theorem oneToken_long_contained :
    (oneToken 0 2147483647 (0 : Nat) (2 : Nat)).GetContained (some ⟨64, fun _ => 0⟩) 64 := by
  refine (sqGet_contained_iff (positioned_oneToken 0 2147483647 (by decide) (by decide)) ?_).mpr
    (.inr (.inr (by decide)))
  rintro region ⟨⟩
  exact le_rfl

/-- A length that is negative as an `int`, and a payload that reaches over the end of the nodes, are
both accepted, and the copy fails. -/
theorem oneToken_contained_wrong :
    (oneToken 0 4294967295 (0 : Nat) (1 : Nat)).Positioned ∧
      ¬ (oneToken 0 4294967295 (0 : Nat) (1 : Nat)).GetContained (some ⟨64, fun _ => 0⟩) 64 ∧
      (oneToken 2 16 (2 : Nat) (1 : Nat)).Positioned ∧
      ¬ (oneToken 2 16 (2 : Nat) (1 : Nat)).GetContained (some ⟨64, fun _ => 0⟩) 64 := by
  have negative_none : ((oneToken 0 4294967295 (0 : Nat) (1 : Nat)).sqGet
      (some ⟨64, fun _ => 0⟩) 64).isNone := by decide
  have beyond_none : ((oneToken 2 16 (2 : Nat) (1 : Nat)).sqGet
      (some ⟨64, fun _ => 0⟩) 64).isNone := by decide
  refine ⟨positioned_oneToken _ _ (by decide) (by decide), ?_,
    positioned_oneToken _ _ (by decide) (by decide), ?_⟩
  · rintro ⟨result, returned, _⟩
    rw [returned] at negative_none
    cases negative_none
  · rintro ⟨result, returned, _⟩
    rw [returned] at beyond_none
    cases beyond_none

end SqHead
end Spp
