import Spp.ShmQueue.Fifo

/-!
# Messages discarded by `sq_get`

A `sq_get` whose buffer is too short returns -2 after it has moved `head_pos` behind the message and
before the loop that resets the tokens.  The tokens of the discarded message stay in the ring.  They
do no harm until a `sq_put` skips their nodes at the end of the ring: the scan of the next `sq_get`
then walks over them and delivers the message again.
-/

namespace Spp
namespace SqHead

open CircularBuffer SegmentRing

/-! ## Calls and their results -/

/-- What a call tells its caller. -/
inductive Outcome where
  | put (exit : PutExit)
  /-- `sq_get`, with the buffer and the time that it leaves. -/
  | get (exit : GetExit) (buf : Option ByteRegion) (time : Option (List UInt8))

/-- The value returned. -/
def Outcome.ret : Outcome → Int
  | .put exit => exit.ret
  | .get exit _ _ => exit.ret

/-- A call of the queue. -/
def answer (queue : SqHead) : Call → Option (Outcome × SqHead)
  | .put data datalen now =>
      (queue.sqPut data datalen now).map fun (exit, next) => (.put exit, next)
  | .get buf bufSz =>
      (queue.sqGet (some buf) bufSz).map fun result =>
        (.get result.exit result.buf result.time, result.queue)

/-- A call whose pointers are good for the lengths given. -/
def Call.Sane : Call → Prop
  | .put data datalen _ => ∀ bytes, data = some bytes → datalen ≤ bytes.length
  | .get buf bufSz => bufSz ≤ buf.size

/-! ## Stale nodes -/

/-- The nodes from `first` up to `last`, around the end of the ring. -/
def Passed (queue : SqHead) (first last : Int) (node : Nat) : Prop :=
  if first ≤ last then first ≤ node ∧ (node : Int) < last
  else first ≤ node ∧ node < queue.ring ∨ (node : Int) < last

/-- The nodes of discarded messages whose tokens were not reset, after a call: a `sq_get` with too
short a buffer adds the nodes of its message, and one that resets tokens removes those nodes. -/
def staleAfter (queue : SqHead) (stale : Nat → Prop) : Call → Nat → Prop
  | .put _ _ _ => stale
  | .get _ bufSz =>
      if bufSz < 1 then
        stale
      else
        match queue.scan with
        | some (.found head newHead datalen) =>
            if datalen > bufSz then
              fun node => stale node ∨ head ≤ node ∧ (node : Int) < newHead
            else
              fun node => stale node ∧ ¬ queue.Passed queue.headPos newHead node
        | some (.skipped newHead) =>
            fun node => stale node ∧ ¬ queue.Passed queue.headPos newHead node
        | _ => stale

/-- The nodes at the end of the ring that a call skips: a `sq_put` whose nodes would reach the end
goes back to index 0, if there is room for it before `head_pos`. -/
def Skips (queue : SqHead) : Call → Nat → Prop
  | .put _ datalen _, node =>
      (queue.ring : Int) ≤ queue.tailPos + queue.sqNumNeededNodes datalen ∧
        queue.sqNumNeededNodes datalen < queue.headPos ∧ queue.headPos ≤ queue.tailPos ∧
        queue.tailPos ≤ node ∧ node < queue.ring
  | .get _ _, _ => False

/-- A queue, with the stale tokens. -/
structure Marked where
  queue : SqHead
  /-- Nodes of discarded messages that still show their tokens. -/
  stale : Nat → Prop

namespace Marked

/-- A new queue. -/
def fresh (eleSize eleCount : Nat) : Marked := ⟨zeroed eleSize eleCount, fun _ => False⟩

/-- What a call does to the queue. -/
def call (state : Marked) (call : Call) : Option (Outcome × Marked) :=
  (state.queue.answer call).map fun (outcome, queue) =>
    (outcome, ⟨queue, state.queue.staleAfter state.stale call⟩)

/-- Calls made one after the other, with their results. -/
def run : Marked → List Call → Option (List Outcome × Marked)
  | state, [] => some ([], state)
  | state, call :: calls => do
      let (outcome, next) ← state.call call
      let (outcomes, last) ← next.run calls
      return (outcome :: outcomes, last)

/-- What the calls of a run give. -/
def results (state : Marked) (calls : List Call) : Option (List Outcome) :=
  (state.run calls).map Prod.fst

/-- A call that skips no stale node. -/
def Safe (state : Marked) (call : Call) : Prop :=
  ∀ node, state.queue.Skips call node → ¬ state.stale node

/-- No call of the run skips a stale node. -/
def SafeRun : Marked → List Call → Prop
  | _, [] => True
  | state, call :: calls =>
      state.Safe call ∧
        ∀ outcome next, state.call call = some (outcome, next) → next.SafeRun calls

end Marked

/-! ## The queue as its callers see it -/

/-- The messages in the ring, oldest first, and the node where they start. -/
structure Backlog where
  eleSize : Nat
  eleCount : Nat
  head : Nat
  messages : List Message

namespace Backlog

/-- The sizes of the queue. -/
def shape (backlog : Backlog) : SqHead := zeroed backlog.eleSize backlog.eleCount

/-- There is room for a message. -/
def Fits (backlog : Backlog) (message : Message) : Prop :=
  backlog.shape.used backlog.head backlog.messages +
    extent backlog.shape.ring (backlog.shape.tail backlog.head backlog.messages)
      (backlog.shape.needed message) < backlog.shape.ring

instance (backlog : Backlog) (message : Message) : Decidable (backlog.Fits message) :=
  inferInstanceAs (Decidable (_ < _))

/-- A message is put. -/
def push (backlog : Backlog) (message : Message) : Backlog :=
  { backlog with messages := backlog.messages ++ [message] }

/-- The first message is taken out. -/
def remove (backlog : Backlog) (message : Message) (rest : List Message) : Backlog :=
  { backlog with
    head := place backlog.shape.ring backlog.head (backlog.shape.needed message) +
      backlog.shape.needed message
    messages := rest }

/-- One call: a message that is too long for the buffer leaves like one that is copied. -/
def answer (backlog : Backlog) : Call → Outcome × Backlog
  | .put none _ _ => (.put .badArgument, backlog)
  | .put (some bytes) datalen now =>
      if datalen ≤ 0 ∨ datalen > maxSqDataLength then
        (.put .badArgument, backlog)
      else if backlog.Fits (given bytes datalen now) then
        (.put (.done []), backlog.push (given bytes datalen now))
      else
        (.put .notEnough, backlog)
  | .get buf bufSz =>
      if bufSz < 1 then
        (.get .badArgument (some buf) none, backlog)
      else
        match backlog.messages with
        | [] => (.get .empty (some buf) none, backlog)
        | message :: rest =>
            if bufSz < message.data.length then
              (.get .exceeds (some buf) (some message.time.bytes), backlog.remove message rest)
            else
              (.get (.taken message.data.length)
                (some { buf with byte := splice buf.byte 0 message.data })
                (some message.time.bytes), backlog.remove message rest)

/-- What the calls of a run are to give. -/
def results : Backlog → List Call → List Outcome
  | _, [] => []
  | backlog, call :: calls =>
      (backlog.answer call).1 :: (backlog.answer call).2.results calls

end Backlog

/-- The memory of the queue holds the backlog, up to stale nodes. -/
structure Represents (state : Marked) (backlog : Backlog) : Prop where
  agree : AgreeOn (fun _ => False) backlog.shape state.queue
  holds : state.queue.Holds backlog.head state.stale backlog.messages

variable {queue : SqHead} {head node : Nat} {dirty : Nat → Prop} {message : Message}
  {rest : List Message} {data : Option (List UInt8)} {datalen bufSz : Int} {now : Timeval}
  {buf : ByteRegion} {state next : Marked} {backlog : Backlog} {calls : List Call}
  {outcome : Outcome}

theorem AgreeOn.dimensions {kept : Nat → Prop} {first second third : SqHead}
    (agree : AgreeOn kept first second) (count_eq : third.eleCount = second.eleCount)
    (size_eq : third.eleSize = second.eleSize) : AgreeOn (fun _ => False) first third :=
  ⟨count_eq.trans agree.count_eq, size_eq.trans agree.size_eq, fun _ kept => kept.elim⟩

theorem represents_fresh {eleSize eleCount : Nat} (size_lt : eleSize < 2147483648)
    (count_lt : eleCount < 1073741824) :
    Represents (.fresh eleSize eleCount) ⟨eleSize, eleCount, 0, []⟩ := by
  obtain ⟨head, holds⟩ := clean_zeroed size_lt count_lt
  obtain rfl : head = 0 := Int.ofNat_inj.mp holds.head_eq.symm
  exact ⟨⟨rfl, rfl, fun _ kept => kept.elim⟩, holds⟩

/-! ## One call -/

/-- Moving the head behind the oldest message leaves stale tokens only in the nodes of its record:
the nodes that it skips show none. -/
theorem Holds.discard (holds : queue.Holds head dirty (message :: rest)) :
    (queue.claimed head message).Holds
      (place queue.ring head (queue.needed message) + queue.needed message)
      (fun node => dirty node ∨ place queue.ring head (queue.needed message) ≤ node ∧
        node < place queue.ring head (queue.needed message) + queue.needed message) rest := by
  obtain ⟨_, proper, skipped, _, _⟩ := holds.stored
  have head_lt := holds.head_lt
  have claimed := holds.claim
  refine { claimed with free := fun offset used_le offset_lt clean => ?_ }
  obtain ⟨not_dirty, apart⟩ := not_or.mp clean
  by_cases taken : queue.Taken head message (wrap queue.ring
      (place queue.ring head (queue.needed message) + queue.needed message) offset)
  · obtain ⟨other, other_lt, same⟩ := taken
    have node_eq : wrap (queue.claimed head message).ring
        (place queue.ring head (queue.needed message) + queue.needed message) offset =
          wrap queue.ring head other := same
    rw [node_eq] at apart ⊢
    have wrap_range := wrap_lt head_lt.le (show other < queue.ring by
      unfold extent at other_lt
      have := holds.room
      have used_eq : queue.used head (message :: rest) =
        extent queue.ring head (queue.needed message) + queue.used _ rest := rfl
      unfold extent at used_eq
      omega)
    unfold extent at other_lt
    unfold place at apart
    unfold wrap at apart wrap_range ⊢
    split at other_lt
    · rw [if_pos ‹_›] at apart
      split at apart <;> omega
    · rw [if_neg ‹_›] at apart
      refine skipped (by omega) _ ?_ wrap_range
      split at apart <;> split <;> omega
  · exact claimed.free offset used_le offset_lt (not_or.mpr ⟨not_dirty, taken⟩)

theorem Holds.taken_of_passed (holds : queue.Holds head dirty (message :: rest))
    (passed : queue.Passed head
      (place queue.ring head (queue.needed message) + queue.needed message : Nat) node) :
    queue.Taken head message node := by
  have room : extent queue.ring head (queue.needed message) + queue.used _ rest < queue.ring :=
    holds.room
  have head_lt := holds.head_lt
  unfold Passed at passed
  by_cases fits : head + queue.needed message < queue.ring
  · have place_eq : place queue.ring head (queue.needed message) = head := if_pos fits
    rw [place_eq, if_pos (by omega)] at passed
    refine ⟨node - head, ?_, ?_⟩
    · rw [extent, if_pos fits]
      omega
    · rw [wrap, if_pos (by omega)]
      omega
  · have place_eq : place queue.ring head (queue.needed message) = 0 := if_neg fits
    have extent_eq : extent queue.ring head (queue.needed message) =
        queue.ring - head + queue.needed message := if_neg fits
    rw [place_eq, if_neg (by omega)] at passed
    by_cases behind : head ≤ node ∧ node < queue.ring
    · refine ⟨node - head, by omega, ?_⟩
      rw [wrap, if_pos (by omega)]
      omega
    · refine ⟨queue.ring - head + node, by omega, ?_⟩
      rw [wrap, if_neg (by omega)]
      omega

section Answer

variable (represents : Represents state backlog)

include represents

theorem Represents.fits_iff (message : Message) :
    backlog.Fits message ↔ state.queue.used backlog.head backlog.messages +
      extent state.queue.ring (state.queue.tail backlog.head backlog.messages)
        (state.queue.needed message) < state.queue.ring := by
  have agree := represents.agree
  rw [Backlog.Fits, agree.used_eq, agree.ring_eq, agree.tail_eq, agree.needed_eq]

theorem Represents.clean {call : Call} (call_eq : call = .put data datalen now)
    (safe : state.Safe call) (valid : message.Valid) (length_eq : datalen = message.data.length)
    (fits : state.queue.used backlog.head backlog.messages +
      extent state.queue.ring (state.queue.tail backlog.head backlog.messages)
        (state.queue.needed message) < state.queue.ring)
    (reaches : state.queue.ring ≤ state.queue.tail backlog.head backlog.messages +
      state.queue.needed message)
    (node : Nat) (tail_le : state.queue.tail backlog.head backlog.messages ≤ node)
    (node_lt : node < state.queue.ring) : ¬ state.stale node := by
  have holds := represents.holds
  have head_lt := holds.head_lt
  have tail_lt := holds.tail_lt
  have tail_adv := holds.tail_eq_advance
  have at_tail : state.queue.tailPos =
    (state.queue.tail backlog.head backlog.messages : Nat) := holds.tail_eq
  have extent_eq : extent state.queue.ring (state.queue.tail backlog.head backlog.messages)
      (state.queue.needed message) =
        state.queue.ring - state.queue.tail backlog.head backlog.messages +
          state.queue.needed message := if_neg (Nat.not_lt.mpr reaches)
  unfold advance at tail_adv
  have before : backlog.head ≤ state.queue.tail backlog.head backlog.messages ∧
      state.queue.needed message < backlog.head := by
    split at tail_adv <;> omega
  have nr_eq : state.queue.sqNumNeededNodes datalen = state.queue.needed message := by
    rw [length_eq]
    exact sqNumNeededNodes_eq holds.sound valid
  subst call_eq
  apply safe
  simp only [Skips]
  rw [nr_eq, at_tail, holds.head_eq]
  exact ⟨by exact_mod_cast reaches, Int.ofNat_lt.mpr before.2, Int.ofNat_le.mpr before.1,
    Int.ofNat_le.mpr tail_le, node_lt⟩

theorem Represents.put (sane : (Call.put data datalen now).Sane)
    (safe : state.Safe (.put data datalen now)) :
    ∃ next, state.call (.put data datalen now) =
        some ((backlog.answer (.put data datalen now)).1, next) ∧
      Represents next (backlog.answer (.put data datalen now)).2 := by
  have holds := represents.holds
  cases data with
  | none => exact ⟨state, rfl, represents⟩
  | some bytes =>
      by_cases bad : datalen ≤ 0 ∨ datalen > maxSqDataLength
      · simp only [Marked.call, SqHead.answer, Backlog.answer, SqHead.sqPut, if_pos bad]
        exact ⟨_, rfl, represents⟩
      · obtain ⟨valid, length_eq, returned⟩ := holds.sqPut_given now bad (sane bytes rfl)
        have fits_iff := represents.fits_iff (given bytes datalen now)
        by_cases fits : backlog.Fits (given bytes datalen now)
        · rw [if_pos (fits_iff.mp fits)] at returned
          simp only [Marked.call, SqHead.answer, Backlog.answer, if_neg bad, if_pos fits, returned]
          refine ⟨_, rfl, represents.agree.dimensions rfl rfl, ?_⟩
          exact holds.appendOver (fits_iff.mp fits) valid
            (represents.clean rfl safe valid length_eq (fits_iff.mp fits))
        · rw [if_neg fun room => fits (fits_iff.mpr room)] at returned
          simp only [Marked.call, SqHead.answer, Backlog.answer, if_neg bad, if_neg fits, returned]
          exact ⟨_, rfl, represents⟩

theorem Represents.get_exceeds (messages_eq : backlog.messages = message :: rest) (buf : ByteRegion)
    (size_ok : ¬ bufSz < 1) (long : bufSz < message.data.length) :
    ∃ next, state.call (.get buf bufSz) =
        some (.get .exceeds (some buf) (some message.time.bytes), next) ∧
      (∀ node, state.stale node → next.stale node) ∧
      Represents next (backlog.remove message rest) := by
  have agree := represents.agree
  have holds := represents.holds
  rw [messages_eq] at holds
  have returned : state.queue.sqGet (some buf) bufSz = some ⟨.exceeds, some buf,
      some message.time.bytes, state.queue.claimed backlog.head message⟩ :=
    holds.sqGet_exceeds size_ok long
  have stale_eq : state.queue.staleAfter state.stale (.get buf bufSz) = fun node =>
      state.stale node ∨ ((place state.queue.ring backlog.head (state.queue.needed message) : Nat) :
        Int) ≤ node ∧ (node : Int) < (place state.queue.ring backlog.head
          (state.queue.needed message) + state.queue.needed message : Nat) := by
    simp only [staleAfter, if_neg size_ok, holds.scan_cons]
    exact if_pos long
  have removed := holds.discard
  rw [agree.ring_eq, agree.needed_eq] at removed stale_eq
  simp only [Marked.call, SqHead.answer, returned, stale_eq]
  refine ⟨_, rfl, fun node => .inl, agree.dimensions rfl rfl, removed.mono ?_⟩
  intro node is_dirty
  exact is_dirty.imp_right fun ⟨start_le, lt_end⟩ => ⟨by omega, by omega⟩

theorem Represents.get_taken (messages_eq : backlog.messages = message :: rest)
    (size_ok : ¬ bufSz < 1) (short : (message.data.length : Int) ≤ bufSz)
    (bufSz_le : bufSz ≤ buf.size) :
    ∃ next, state.call (.get buf bufSz) =
        some (.get (.taken message.data.length)
          (some { buf with byte := splice buf.byte 0 message.data })
          (some message.time.bytes), next) ∧
      (∀ node, next.stale node → state.stale node) ∧
      Represents next (backlog.remove message rest) := by
  have agree := represents.agree
  have holds := represents.holds
  rw [messages_eq] at holds
  obtain ⟨after, returned, cleared, emptied⟩ := holds.sqGet_taken size_ok short bufSz_le
  have stale_eq : state.queue.staleAfter state.stale (.get buf bufSz) = fun node =>
      state.stale node ∧ ¬ state.queue.Passed backlog.head (place state.queue.ring backlog.head
        (state.queue.needed message) + state.queue.needed message : Nat) node := by
    simp only [staleAfter, if_neg size_ok, holds.scan_cons, holds.head_eq]
    exact if_neg (by omega)
  have remaining := emptied.mono fun node is_dirty =>
    show state.stale node ∧ ¬ state.queue.Passed _ _ node from
      ⟨is_dirty.1, fun passed => is_dirty.2 (holds.taken_of_passed passed)⟩
  rw [← stale_eq, agree.ring_eq, agree.needed_eq] at remaining
  simp only [Marked.call, SqHead.answer, returned]
  refine ⟨_, rfl, ?_, agree.dimensions cleared.agree.count_eq cleared.agree.size_eq, remaining⟩
  intro node is_stale
  rw [stale_eq] at is_stale
  exact is_stale.1

theorem Represents.get (bufSz_le : bufSz ≤ buf.size) :
    ∃ next, state.call (.get buf bufSz) = some ((backlog.answer (.get buf bufSz)).1, next) ∧
      Represents next (backlog.answer (.get buf bufSz)).2 := by
  by_cases size_bad : bufSz < 1
  · simp only [Marked.call, SqHead.answer, Backlog.answer, SqHead.sqGet, staleAfter,
      if_pos size_bad]
    exact ⟨_, rfl, represents⟩
  · cases messages_eq : backlog.messages with
    | nil =>
        have holds := represents.holds
        rw [messages_eq] at holds
        have returned : state.queue.sqGet (some buf) bufSz =
            some ⟨.empty, some buf, none, state.queue⟩ := holds.sqGet_nil size_bad
        simp only [Marked.call, SqHead.answer, Backlog.answer, staleAfter, if_neg size_bad,
          messages_eq, returned, holds.scan_nil]
        exact ⟨_, rfl, represents⟩
    | cons message rest =>
        by_cases long : bufSz < message.data.length
        · obtain ⟨next, called, _, removed⟩ :=
            represents.get_exceeds messages_eq buf size_bad long
          simp only [Backlog.answer, if_neg size_bad, messages_eq, if_pos long]
          exact ⟨next, called, removed⟩
        · obtain ⟨next, called, _, removed⟩ :=
            represents.get_taken messages_eq size_bad (by omega) bufSz_le
          simp only [Backlog.answer, if_neg size_bad, messages_eq, if_neg long]
          exact ⟨next, called, removed⟩

/-- A safe call answers as the backlog does, and its queue represents the next backlog. -/
theorem Represents.call {call : Call} (sane : call.Sane) (safe : state.Safe call) :
    ∃ next, state.call call = some ((backlog.answer call).1, next) ∧
      Represents next (backlog.answer call).2 := by
  cases call with
  | put data datalen now => exact represents.put sane safe
  | get buf bufSz => exact represents.get sane

end Answer

/-! ## Runs -/

theorem Represents.run {last : Marked} {outcomes : List Outcome}
    (represents : Represents state backlog) (sane : ∀ call ∈ calls, call.Sane)
    (safe : state.SafeRun calls) (ran : state.run calls = some (outcomes, last)) :
    ∃ later, Represents last later := by
  induction calls generalizing state backlog outcomes with
  | nil =>
      cases ran
      exact ⟨backlog, represents⟩
  | cons call calls induction =>
      obtain ⟨call_safe, rest_safe⟩ := safe
      obtain ⟨next, called, after⟩ :=
        represents.call (sane call List.mem_cons_self) call_safe
      simp only [Marked.run, called, Option.bind_eq_bind, Option.bind_some,
        Option.bind_eq_some_iff] at ran
      obtain ⟨⟨later_outcomes, _⟩, later, same⟩ := ran
      cases same
      exact induction after (fun call member => sane call (List.mem_cons_of_mem _ member))
        (rest_safe _ _ called) later

section Twins

variable {first second : Marked} (left : Represents first backlog)
  (right : Represents second backlog)

include left right

theorem Represents.agree_twin : AgreeOn (fun _ => False) first.queue second.queue :=
  ⟨right.agree.count_eq.trans left.agree.count_eq.symm,
    right.agree.size_eq.trans left.agree.size_eq.symm, fun _ kept => kept.elim⟩

theorem Represents.head_twin : second.queue.headPos = first.queue.headPos :=
  right.holds.head_eq.trans left.holds.head_eq.symm

theorem Represents.tail_twin : second.queue.tailPos = first.queue.tailPos := by
  have agree := left.agree_twin right
  rw [right.holds.tail_eq, left.holds.tail_eq, agree.ring_eq, agree.blocks_eq]

theorem Represents.scan_twin : second.queue.scan = first.queue.scan := by
  have agree := left.agree_twin right
  have left_holds := left.holds
  have right_holds := right.holds
  cases messages_eq : backlog.messages with
  | nil =>
      rw [messages_eq] at left_holds right_holds
      rw [left_holds.scan_nil, right_holds.scan_nil]
  | cons message rest =>
      rw [messages_eq] at left_holds right_holds
      rw [left_holds.scan_cons, right_holds.scan_cons, agree.ring_eq, agree.needed_eq]

variable (fewer : ∀ node, second.stale node → first.stale node)

include fewer

theorem Represents.safe_twin {call : Call} (safe : first.Safe call) : second.Safe call := by
  have agree := left.agree_twin right
  intro node skips is_stale
  refine safe node ?_ (fewer node is_stale)
  cases call with
  | put data datalen now =>
      have nr_eq : second.queue.sqNumNeededNodes datalen =
          first.queue.sqNumNeededNodes datalen := by
        rw [sqNumNeededNodes, agree.sqNodeSize_eq, sqNumNeededNodes]
      simp only [Skips] at skips ⊢
      rw [agree.ring_eq, nr_eq, left.head_twin right, left.tail_twin right] at skips
      exact skips
  | get buf bufSz => exact skips

theorem Represents.fewer_twin (call : Call)
    (is_stale : second.queue.staleAfter second.stale call node) :
    first.queue.staleAfter first.stale call node := by
  have agree := left.agree_twin right
  have passed_eq : second.queue.Passed = first.queue.Passed := by
    funext start stop node
    rw [Passed, agree.ring_eq, Passed]
  cases call with
  | put data datalen now => exact fewer node is_stale
  | get buf bufSz =>
      simp only [staleAfter] at is_stale ⊢
      rw [left.scan_twin right, left.head_twin right, passed_eq] at is_stale
      by_cases size_bad : bufSz < 1
      · rw [if_pos size_bad] at is_stale ⊢
        exact fewer node is_stale
      · rw [if_neg size_bad] at is_stale ⊢
        cases scan_eq : first.queue.scan with
        | none =>
            rw [scan_eq] at is_stale
            exact fewer node is_stale
        | some exit =>
            rw [scan_eq] at is_stale
            cases exit with
            | empty => exact fewer node is_stale
            | skipped newHead => exact ⟨fewer node is_stale.1, is_stale.2⟩
            | found head newHead datalen =>
                dsimp only at is_stale ⊢
                by_cases long : datalen > bufSz
                · rw [if_pos long] at is_stale ⊢
                  exact is_stale.imp_left (fewer node)
                · rw [if_neg long] at is_stale ⊢
                  exact ⟨fewer node is_stale.1, is_stale.2⟩

end Twins

theorem Marked.call_stale {call : Call} (called : state.call call = some (outcome, next)) :
    next.stale = state.queue.staleAfter state.stale call := by
  obtain ⟨_, _, same⟩ := Option.map_eq_some_iff.mp called
  cases same
  rfl

theorem Marked.results_cons {call : Call} (called : state.call call = some (outcome, next))
    (calls : List Call) :
    state.results (call :: calls) = (next.results calls).map (outcome :: ·) := by
  simp only [Marked.results, Marked.run, called, Option.bind_eq_bind, Option.bind_some]
  cases next.run calls <;> rfl

/-- Two queues that represent the same backlog give the same results, as long as the one with more
stale nodes skips none of them. -/
theorem Represents.results {first second : Marked} (left : Represents first backlog)
    (right : Represents second backlog) (fewer : ∀ node, second.stale node → first.stale node)
    (sane : ∀ call ∈ calls, call.Sane) (safe : first.SafeRun calls) :
    first.results calls = some (backlog.results calls) ∧
      second.results calls = some (backlog.results calls) := by
  induction calls generalizing first second backlog with
  | nil => exact ⟨rfl, rfl⟩
  | cons call calls induction =>
      obtain ⟨call_safe, rest_safe⟩ := safe
      have call_sane := sane call List.mem_cons_self
      obtain ⟨first_next, first_called, first_after⟩ := left.call call_sane call_safe
      obtain ⟨second_next, second_called, second_after⟩ :=
        right.call call_sane (left.safe_twin right fewer call_safe)
      have next_fewer : ∀ node, second_next.stale node → first_next.stale node := by
        rw [Marked.call_stale first_called, Marked.call_stale second_called]
        intro node
        exact left.fewer_twin right fewer call
      obtain ⟨first_rest, second_rest⟩ := induction first_after second_after next_fewer
        (fun call member => sane call (List.mem_cons_of_mem _ member))
        (rest_safe _ _ first_called)
      rw [Marked.results_cons first_called, Marked.results_cons second_called, first_rest,
        second_rest]
      exact ⟨rfl, rfl⟩

section Returned

variable (represents : Represents state backlog) (bufSz_le : bufSz ≤ buf.size)
  (called : state.call (.get buf bufSz) = some (outcome, next))

include represents bufSz_le called

theorem Represents.outcome_eq : outcome = (backlog.answer (.get buf bufSz)).1 := by
  obtain ⟨_, called_eq, _⟩ := represents.get bufSz_le
  exact (Prod.mk.inj (Option.some.inj (called.symm.trans called_eq))).1

/-- A `sq_get` that returns -2 found a message longer than its buffer. -/
theorem Represents.of_ret_exceeds (ret_eq : outcome.ret = -2) :
    ∃ message rest, backlog.messages = message :: rest ∧ ¬ bufSz < 1 ∧
      bufSz < message.data.length := by
  rw [represents.outcome_eq bufSz_le called] at ret_eq
  by_cases size_bad : bufSz < 1
  · simp [Backlog.answer, size_bad, Outcome.ret, GetExit.ret] at ret_eq
  · cases messages_eq : backlog.messages with
    | nil => simp [Backlog.answer, size_bad, messages_eq, Outcome.ret, GetExit.ret] at ret_eq
    | cons message rest =>
        refine ⟨message, rest, rfl, size_bad, ?_⟩
        by_contra short
        simp only [Backlog.answer, if_neg size_bad, messages_eq, if_neg short, Outcome.ret,
          GetExit.ret] at ret_eq
        omega

/-- A `sq_get` that returns a length found a message that its buffer holds. -/
theorem Represents.of_ret_pos (messages_eq : backlog.messages = message :: rest)
    (ret_pos : 0 < outcome.ret) : ¬ bufSz < 1 ∧ (message.data.length : Int) ≤ bufSz := by
  rw [represents.outcome_eq bufSz_le called] at ret_pos
  by_cases size_bad : bufSz < 1
  · simp [Backlog.answer, size_bad, Outcome.ret, GetExit.ret] at ret_pos
  · refine ⟨size_bad, ?_⟩
    by_contra long
    simp [Backlog.answer, size_bad, messages_eq, not_le.mp long, Outcome.ret, GetExit.ret]
      at ret_pos

end Returned

/-- A `sq_get` that returns -2 discards exactly its message: in every run in which no `sq_put` skips
a stale node, the results of all later calls are those after a `sq_get` of the message with a large
enough buffer. -/
theorem safeRun_discard_asGot (eleSize eleCount : Nat) (size_lt : eleSize < 2147483648)
    (count_lt : eleCount < 1073741824) {earlier : List Call} {outcomes : List Outcome}
    {state : Marked} (earlier_sane : ∀ call ∈ earlier, call.Sane)
    (earlier_safe : (Marked.fresh eleSize eleCount).SafeRun earlier)
    (ran : (Marked.fresh eleSize eleCount).run earlier = some (outcomes, state))
    {buf large : ByteRegion} {bufSz largeSz : Int} (bufSz_le : bufSz ≤ buf.size)
    (largeSz_le : largeSz ≤ large.size) {refusal delivery : Outcome} {discarded got : Marked}
    (discards : state.call (.get buf bufSz) = some (refusal, discarded))
    (refusal_ret : refusal.ret = -2)
    (gets : state.call (.get large largeSz) = some (delivery, got))
    (delivery_ret : 0 < delivery.ret) {later : List Call} (later_sane : ∀ call ∈ later, call.Sane)
    (later_safe : discarded.SafeRun later) :
    ∃ results, discarded.results later = some results ∧ got.results later = some results := by
  obtain ⟨backlog, represents⟩ :=
    (represents_fresh size_lt count_lt).run earlier_sane earlier_safe ran
  obtain ⟨message, rest, messages_eq, size_ok, long⟩ :=
    represents.of_ret_exceeds bufSz_le discards refusal_ret
  obtain ⟨largeSz_ok, short⟩ :=
    represents.of_ret_pos largeSz_le gets messages_eq delivery_ret
  obtain ⟨_, discards_eq, more, left⟩ := represents.get_exceeds messages_eq buf size_ok long
  obtain ⟨_, gets_eq, fewer, right⟩ :=
    represents.get_taken messages_eq largeSz_ok short largeSz_le
  obtain ⟨_, rfl⟩ := Prod.mk.inj (Option.some.inj (discards.symm.trans discards_eq))
  obtain ⟨_, rfl⟩ := Prod.mk.inj (Option.some.inj (gets.symm.trans gets_eq))
  obtain ⟨left_results, right_results⟩ := left.results right
    (fun node is_stale => more node (fewer node is_stale)) later_sane later_safe
  exact ⟨_, left_results, right_results⟩

/-! ## Runs of fixed calls -/

/-- `sq_put` of some bytes. -/
def putBytes (len : Nat) : Call := .put (some (List.replicate len 7)) len sampleMessage.time

/-- `sq_get` with a buffer of some size. -/
def getInto (len : Nat) : Call := .get ⟨len, fun _ => 0⟩ len

theorem sane_putBytes (len : Nat) : (putBytes len).Sane := by
  rintro bytes ⟨⟩
  rw [List.length_replicate]

theorem sane_getInto (len : Nat) : (getInto len).Sane := le_refl _

theorem isSome_run_onePut : ((Marked.fresh 8 4).run [putBytes 2]).isSome := by decide

/-- One message is put. -/
def onePut : Marked := (((Marked.fresh 8 4).run [putBytes 2]).get isSome_run_onePut).2

theorem isSome_onePut_short : (onePut.call (getInto 1)).isSome := by decide

theorem isSome_onePut_large : (onePut.call (getInto 64)).isSome := by decide

/-- It does not fit into a buffer. -/
def oneDiscarded : Marked := ((onePut.call (getInto 1)).get isSome_onePut_short).2

/-- It is taken out. -/
def oneGot : Marked := ((onePut.call (getInto 64)).get isSome_onePut_large).2

theorem onePut_discard_asGot :
    ∃ results, oneDiscarded.results [putBytes 41, getInto 64] = some results ∧
      oneGot.results [putBytes 41, getInto 64] = some results := by
  have in_time : ¬ ((oneDiscarded.queue.ring : Int) ≤
      oneDiscarded.queue.tailPos + oneDiscarded.queue.sqNumNeededNodes (41 : Nat)) := by
    decide
  have filled := (Option.some_get isSome_run_onePut).symm
  have refused := (Option.some_get isSome_onePut_short).symm
  have got := (Option.some_get isSome_onePut_large).symm
  apply safeRun_discard_asGot 8 4 (by decide) (by decide) ?_ ?_ filled (sane_getInto 1)
    (sane_getInto 64) refused (by decide) got (by decide)
  · intro call member
    simp only [List.mem_cons, List.not_mem_nil, or_false] at member
    rcases member with rfl | rfl
    · exact sane_putBytes 41
    · exact sane_getInto 64
  · exact ⟨fun node skips => absurd skips.1 in_time, fun _ _ _ => ⟨fun _ skips => skips.elim,
      fun _ _ _ => trivial⟩⟩
  · intro call member
    rw [List.mem_singleton.mp member]
    exact sane_putBytes 2
  · exact ⟨fun _ _ => not_false, fun _ _ _ => trivial⟩

/-! ## A stale message delivered again -/

/-- Calls that leave one message of two bytes in the fourth of five nodes. -/
def fillFourth : List Call := [putBytes 41, getInto 64, putBytes 2]

/-- Calls that lead the tail once around the ring, so that the last `sq_put`, of two nodes, skips
the fourth node. -/
def goAround : List Call := [putBytes 41, getInto 64, putBytes 9, getInto 64]

theorem sane_of_mem_samples {call : Call} (member : call ∈ fillFourth ++ goAround) : call.Sane := by
  simp only [fillFourth, goAround, List.cons_append, List.nil_append, List.mem_cons,
    List.not_mem_nil, or_false] at member
  rcases member with rfl | rfl | rfl | rfl | rfl | rfl | rfl
  all_goals first | exact sane_putBytes _ | exact sane_getInto _

theorem isSome_run_fillFourth : ((Marked.fresh 8 4).run fillFourth).isSome := by decide

/-- The state before the message of two bytes is got. -/
def fourthFilled : Marked := (((Marked.fresh 8 4).run fillFourth).get isSome_run_fillFourth).2

theorem isSome_fourthFilled_short : (fourthFilled.call (getInto 1)).isSome := by decide

theorem isSome_fourthFilled_large : (fourthFilled.call (getInto 64)).isSome := by decide

/-- The fourth message does not fit into a buffer. -/
def fourthDiscarded : Marked :=
  ((fourthFilled.call (getInto 1)).get isSome_fourthFilled_short).2

/-- The fourth message is taken out. -/
def fourthGot : Marked := ((fourthFilled.call (getInto 64)).get isSome_fourthFilled_large).2

/-- The discarded message of two bytes is delivered again, in place of the later message of nine
bytes. -/
theorem discard_asGot_wrong :
    (∃ outcomes, (Marked.fresh 8 4).run fillFourth = some (outcomes, fourthFilled)) ∧
      (∃ refusal, fourthFilled.call (getInto 1) = some (refusal, fourthDiscarded) ∧
        refusal.ret = -2) ∧
      (∃ delivery, fourthFilled.call (getInto 64) = some (delivery, fourthGot) ∧
        delivery.ret = 2) ∧
      (∀ call ∈ fillFourth ++ goAround, call.Sane) ∧
      (fourthDiscarded.results goAround).map (List.map Outcome.ret) = some [0, 41, 0, 2] ∧
      (fourthGot.results goAround).map (List.map Outcome.ret) = some [0, 41, 0, 9] := by
  have filled := (Option.some_get isSome_run_fillFourth).symm
  have refused := (Option.some_get isSome_fourthFilled_short).symm
  have got := (Option.some_get isSome_fourthFilled_large).symm
  exact ⟨⟨_, filled⟩, ⟨_, refused, by decide⟩, ⟨_, got, by decide⟩,
    fun _ => sane_of_mem_samples, by decide, by decide⟩

end SqHead
end Spp
