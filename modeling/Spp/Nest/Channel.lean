import Spp.Comm.RawCache
import Spp.Lib.Returns

/-!
# Output of a channel, `TNestChannel`

The sending calls of `nest/comm/nest_channel.cpp` on a connected channel.  What the socket does not
accept goes to the write cache `_w`, and the output event of the poller tells when the socket
accepts more.

What `writev` and `send` do is an argument of a call, and so is the memory that the write cache
gets. `epoll_ctl` succeeds.  An allocation that fails throws, and nothing catches it here, so that
the call does not return (`none`).
-/

namespace Spp

/-- What a write to the socket does. -/
inductive WriteOutcome where
  /-- The socket accepts some bytes, at most those that are offered. -/
  | accepted (count : Nat)
  | again
  | interrupted
  | failed
  deriving DecidableEq

/-- The write is to be tried again. -/
def WriteOutcome.Retry (outcome : WriteOutcome) : Prop :=
  outcome = .again ∨ outcome = .interrupted

instance (outcome : WriteOutcome) : Decidable outcome.Retry :=
  inferInstanceAs (Decidable (_ ∨ _))

/-- `TNestChannel` -/
structure TNestChannel where
  w : CRawCache
  newEvents : Bool
  /-- `EPOLLOUT` in `oldEvents`, the events that the poller waits for. -/
  oldEvents : Bool

/-- What a call returns, the bytes that the socket accepts, and the channel. -/
structure Sent where
  ret : Int
  accepted : List UInt8
  channel : TNestChannel

namespace CRawCache

/-- `append` where nobody catches what it throws. -/
def appendUncaught (cache : CRawCache) (fresh : Fresh) (bytes : List UInt8) : Option CRawCache := do
  let appended ← cache.append fresh bytes
  if appended.thrown then none else some appended.cache

/-- The write cache of `SendEx` after `writev` has accepted `bytes` bytes. -/
def afterWrite (w : CRawCache) (fresh : Nat → Fresh) (bytes : Nat) (ctrl data : List UInt8) :
    Option CRawCache :=
  let cacheLen := w.dataLen
  if bytes < cacheLen then do
    let w ← (w.skip bytes).appendUncaught (fresh 0) ctrl
    w.appendUncaught (fresh 1) data
  else if bytes < cacheLen + ctrl.length then do
    let leftLen := cacheLen + ctrl.length - bytes
    let w ← (w.skip cacheLen).appendUncaught (fresh 0) (ctrl.drop (ctrl.length - leftLen))
    w.appendUncaught (fresh 1) data
  else if bytes < cacheLen + ctrl.length + data.length then
    let leftLen := cacheLen + ctrl.length + data.length - bytes
    (w.skip cacheLen).appendUncaught (fresh 0) (data.drop (data.length - leftLen))
  else
    some (w.skip cacheLen)

end CRawCache

namespace TNestChannel

/-- A new connection. -/
def connected : TNestChannel := ⟨.init, false, false⟩

/-- `EnableOutput` or `DisableOutput`, then `ApplyEvents`. -/
def applyOutput (channel : TNestChannel) : TNestChannel :=
  let output := decide (channel.w.dataLen > 0)
  { channel with newEvents := output, oldEvents := output }

/-- `SendEx` -/
def sendEx (channel : TNestChannel) (outcome : WriteOutcome) (fresh : Nat → Fresh)
    (ctrl data : List UInt8) : Option Sent := do
  let cached ← channel.w.data
  match outcome with
  | .accepted count =>
      let accepted := (cached ++ ctrl ++ data).take count
      let w ← channel.w.afterWrite fresh accepted.length ctrl data
      return ⟨i32 accepted.length, accepted, applyOutput { channel with w }⟩
  | .again | .interrupted =>
      let w ← channel.w.appendUncaught (fresh 0) ctrl
      let w ← w.appendUncaught (fresh 1) data
      return ⟨0, [], { channel with w }⟩
  | .failed => return ⟨-1, [], channel⟩

/-- `Send`; when it fails, the dispatcher deletes the channel. -/
def send (channel : TNestChannel) (outcome : WriteOutcome) (fresh : Nat → Fresh)
    (data : List UInt8) : Option Sent :=
  channel.sendEx outcome fresh [] data

/-- `SendCache` after `send` has accepted some bytes.  A number of bytes that does not fit into
`int32_t` is taken for an error; `retry` tells whether `errno` is `EAGAIN` or `EINTR`. -/
def skipSent (channel : TNestChannel) (accepted : List UInt8) (retry : Bool) : Sent :=
  if i32 accepted.length ≥ 0 then
    ⟨0, accepted, applyOutput { channel with w := channel.w.skip accepted.length }⟩
  else if retry then
    ⟨0, accepted, channel.applyOutput⟩
  else
    ⟨-1, accepted, channel⟩

/-- The part of `SendCache` that sends, where `retry` is about `errno` before the call. -/
def sendCached (channel : TNestChannel) (outcome : WriteOutcome) (retry : Bool) : Option Sent := do
  let cached ← channel.w.data
  match outcome with
  | .accepted count => return channel.skipSent (cached.take count) retry
  | .again | .interrupted => return ⟨0, [], channel.applyOutput⟩
  | .failed => return ⟨-1, [], channel⟩

/-- `SendCache` -/
def sendCache (channel : TNestChannel) (outcome : WriteOutcome) (retry : Bool) : Option Sent :=
  if channel.w.dataLen > 0 then
    channel.sendCached outcome retry
  else
    some ⟨0, [], channel.applyOutput⟩

end TNestChannel

namespace CRawCache

variable {cache : CRawCache}

theorem Modest.appendUncaught (modest : Modest cache) (fresh : Fresh) {bytes : List UInt8}
    (few : cache.content.length + bytes.length ≤ 1431655765) :
    Returns (cache.appendUncaught fresh bytes) (fresh = none) fun after =>
      Modest after ∧ after.content = cache.content ++ bytes := by
  obtain ⟨appended, eq, after, content_eq, thrown⟩ := modest.append fresh few
  rw [CRawCache.appendUncaught, eq]
  cases thrown_eq : appended.thrown with
  | false =>
      rw [thrown_eq, if_neg Bool.false_ne_true] at content_eq
      refine Or.inl ⟨appended.cache, ?_, after, content_eq⟩
      simp only [Option.bind_eq_bind, Option.bind_some, thrown_eq, if_neg Bool.false_ne_true]
  | true =>
      refine Or.inr ⟨?_, thrown thrown_eq⟩
      simp only [Option.bind_eq_bind, Option.bind_some, thrown_eq, if_pos]

theorem Modest.appendTwice (modest : Modest cache) (fresh : Nat → Fresh) {first second : List UInt8}
    (few : cache.content.length + first.length + second.length ≤ 1431655765) :
    Returns ((cache.appendUncaught (fresh 0) first).bind
        fun after => after.appendUncaught (fresh 1) second) (∃ call, fresh call = none) fun after =>
      Modest after ∧ after.content = cache.content ++ first ++ second := by
  refine Returns.bind ((modest.appendUncaught (fresh 0) (by omega)).mono (fun _ => id)
    fun missing => ⟨0, missing⟩) ?_
  rintro after ⟨after_modest, content_eq⟩
  have length_eq := congrArg List.length content_eq
  rw [List.length_append] at length_eq
  refine (after_modest.appendUncaught (fresh 1) (by omega)).mono ?_ fun missing => ⟨1, missing⟩
  rintro last ⟨last_modest, last_eq⟩
  exact ⟨last_modest, by rw [last_eq, content_eq]⟩

/-- After `writev` the cache holds what is left of the three segments. -/
theorem Modest.afterWrite (modest : Modest cache) (fresh : Nat → Fresh) {bytes : Nat}
    {ctrl data : List UInt8}
    (few : cache.content.length + ctrl.length + data.length ≤ 1431655765) :
    Returns (cache.afterWrite fresh bytes ctrl data) (∃ call, fresh call = none) fun after =>
      Modest after ∧ after.content = (cache.content ++ ctrl ++ data).drop bytes := by
  have length_eq := modest.length_content
  have none_left : (cache.skip cache.dataLen).content = [] := by
    rw [content_skip modest.toSound, ← length_eq, List.drop_length]
  have left_few : (cache.skip cache.dataLen).content.length = 0 := by rw [none_left]; rfl
  unfold CRawCache.afterWrite
  dsimp only
  split
  · rename_i part
    have skipped := content_skip modest.toSound bytes
    have skipped_length := congrArg List.length skipped
    rw [List.length_drop] at skipped_length
    refine ((modest.skip bytes).appendTwice fresh (by omega)).mono ?_ id
    rintro after ⟨after_modest, content_eq⟩
    refine ⟨after_modest, ?_⟩
    rw [content_eq, skipped, List.append_assoc, List.append_assoc,
      List.drop_append_of_le_length (by omega)]
  · rename_i all
    split
    · rename_i part
      rw [show ctrl.length - (cache.dataLen + ctrl.length - bytes) = bytes - cache.dataLen by omega]
      have ctrl_length := List.length_drop (i := bytes - cache.dataLen) (l := ctrl)
      refine ((modest.skip cache.dataLen).appendTwice fresh (by omega)).mono ?_ id
      rintro after ⟨after_modest, content_eq⟩
      refine ⟨after_modest, ?_⟩
      have gone : cache.content.drop bytes = [] := List.drop_of_length_le (by omega)
      rw [content_eq, none_left, List.nil_append, List.append_assoc, List.drop_append, gone,
        List.nil_append, length_eq, List.drop_append_of_le_length (by omega)]
    · rename_i behind
      split
      · rename_i part
        rw [show data.length - (cache.dataLen + ctrl.length + data.length - bytes) =
          bytes - (cache.dataLen + ctrl.length) by omega]
        have data_length :=
          List.length_drop (i := bytes - (cache.dataLen + ctrl.length)) (l := data)
        refine ((modest.skip cache.dataLen).appendUncaught (fresh 0) (by omega)).mono ?_
          fun missing => ⟨0, missing⟩
        rintro after ⟨after_modest, content_eq⟩
        refine ⟨after_modest, ?_⟩
        have gone : (cache.content ++ ctrl).drop bytes = [] :=
          List.drop_of_length_le (by rw [List.length_append]; omega)
        rw [content_eq, none_left, List.drop_append, gone, List.length_append, length_eq]
      · rename_i whole
        refine Returns.pure ⟨modest.skip _, ?_⟩
        rw [none_left, List.drop_of_length_le]
        rw [List.length_append, List.length_append]
        omega

end CRawCache

namespace TNestChannel

/-- The output event is enabled if and only if the write cache has bytes. -/
def OutputFits (channel : TNestChannel) : Prop :=
  channel.newEvents = channel.oldEvents ∧ (channel.oldEvents = true ↔ channel.w.content ≠ [])

variable {channel : TNestChannel} {ctrl data : List UInt8}

theorem applyOutput_fits (modest : channel.w.Modest) : channel.applyOutput.OutputFits := by
  refine ⟨rfl, ?_⟩
  show decide (channel.w.dataLen > 0) = true ↔ channel.w.content ≠ []
  rw [decide_eq_true_iff, ← modest.length_content]
  exact List.length_pos_iff

/-- What a sending call does to a channel that holds few bytes: nothing is lost. -/
structure Sends (before : TNestChannel) (passed : List UInt8) (sent : Sent) : Prop where
  modest : sent.channel.w.Modest
  content_eq : sent.accepted ++ sent.channel.w.content = before.w.content ++ passed
  output : sent.channel.OutputFits

theorem append_eq_nil_congr {first second : List UInt8} (empty : first = [] → second = []) :
    first ≠ [] ↔ first ++ second ≠ [] := by
  rw [not_iff_not, List.append_eq_nil_iff]
  exact ⟨fun first_empty => ⟨first_empty, empty first_empty⟩, And.left⟩

/-- What `SendEx` has to do: if it returns a number of bytes, nothing is lost, and otherwise nothing
happens. -/
def SendExPost (channel : TNestChannel) (passed : List UInt8) (sent : Sent) : Prop :=
  (0 ≤ sent.ret → Sends channel passed sent) ∧
    (sent.ret < 0 → sent.channel = channel ∧ sent.accepted = [])

theorem sendEx_retry (modest : channel.w.Modest) (output : channel.OutputFits) (fresh : Nat → Fresh)
    (few : channel.w.content.length + ctrl.length + data.length ≤ 1431655765)
    (pending : channel.w.content = [] → ctrl ++ data = []) :
    Returns ((channel.w.appendUncaught (fresh 0) ctrl).bind fun w =>
        (w.appendUncaught (fresh 1) data).bind fun w => some ⟨0, [], { channel with w }⟩)
      (∃ call, fresh call = none) (SendExPost channel (ctrl ++ data)) := by
  have appended := modest.appendTwice fresh few
  rw [← Option.bind_assoc]
  refine appended.bind ?_
  rintro w ⟨w_modest, content_eq⟩
  rw [List.append_assoc] at content_eq
  refine Returns.pure ⟨fun _ => ⟨w_modest, content_eq, output.1, ?_⟩, fun negative =>
    absurd negative (lt_irrefl 0)⟩
  show channel.oldEvents = true ↔ w.content ≠ []
  rw [output.2, content_eq]
  exact append_eq_nil_congr pending

theorem sendEx_eq (modest : channel.w.Modest) (output : channel.OutputFits) {outcome : WriteOutcome}
    (fresh : Nat → Fresh) (few : channel.w.content.length + ctrl.length + data.length ≤ 1431655765)
    (pending : outcome.Retry → channel.w.content = [] → ctrl ++ data = []) :
    Returns (channel.sendEx outcome fresh ctrl data) (∃ call, fresh call = none)
      (SendExPost channel (ctrl ++ data)) := by
  unfold sendEx
  rw [modest.data_eq]
  cases outcome with
  | accepted count =>
      refine (modest.afterWrite fresh few).bind ?_
      rintro w ⟨w_modest, content_eq⟩
      have length_le := List.length_take_le' count (channel.w.content ++ ctrl ++ data)
      rw [List.length_append, List.length_append] at length_le
      have ret_eq := i32_of_lt (show ((channel.w.content ++ ctrl ++ data).take count).length <
        2147483648 by omega)
      refine Returns.pure ⟨fun _ => ⟨w_modest, ?_, applyOutput_fits w_modest⟩, fun negative => ?_⟩
      · show (channel.w.content ++ ctrl ++ data).take count ++ w.content = _
        rw [content_eq, take_append_drop_length, List.append_assoc]
      · change i32 _ < 0 at negative
        rw [ret_eq] at negative
        omega
  | again => exact sendEx_retry modest output fresh few (pending (Or.inl rfl))
  | interrupted => exact sendEx_retry modest output fresh few (pending (Or.inr rfl))
  | failed =>
      exact Returns.pure ⟨fun positive => absurd positive (show ¬(0 : Int) ≤ -1 by decide),
        fun _ => ⟨rfl, rfl⟩⟩

theorem skipSent_eq (channel : TNestChannel) {accepted : List UInt8}
    (short : accepted.length < 2147483648) (retry : Bool) : channel.skipSent accepted retry =
      ⟨0, accepted, applyOutput { channel with w := channel.w.skip accepted.length }⟩ := by
  unfold skipSent
  rw [i32_of_lt short]
  exact if_pos (Int.natCast_nonneg _)

theorem sendCache_eq (modest : channel.w.Modest)
    (few : channel.w.content.length ≤ 1431655765) (outcome : WriteOutcome) (retry : Bool) :
    Returns (channel.sendCache outcome retry) False (SendExPost channel []) := by
  have unsent : SendExPost channel [] ⟨0, [], channel.applyOutput⟩ :=
    ⟨fun _ => ⟨modest, (List.append_nil _).symm, applyOutput_fits modest⟩, fun negative =>
      absurd negative (lt_irrefl 0)⟩
  unfold sendCache
  split
  · unfold sendCached
    rw [modest.data_eq]
    cases outcome with
    | accepted count =>
        have length_le := List.length_take_le' count channel.w.content
        have sent_eq := skipSent_eq channel (show (channel.w.content.take count).length <
          2147483648 by omega) retry
        have skipped : (channel.w.content.take count) ++
            (channel.w.skip (channel.w.content.take count).length).content =
              channel.w.content ++ [] := by
          rw [CRawCache.content_skip modest.toSound, take_append_drop_length, List.append_nil]
        show Returns (some (channel.skipSent (channel.w.content.take count) retry)) _ _
        rw [sent_eq]
        exact Returns.pure ⟨fun _ => ⟨modest.skip _, skipped, applyOutput_fits (modest.skip _)⟩,
          fun negative => absurd negative (lt_irrefl 0)⟩
    | again | interrupted => exact Returns.pure unsent
    | failed =>
        exact Returns.pure ⟨fun positive => absurd positive (show ¬(0 : Int) ≤ -1 by decide),
          fun _ => ⟨rfl, rfl⟩⟩
  · exact Returns.pure unsent

/-! ## Runs -/

/-- The calls that send. -/
inductive SendCall where
  | sendEx (outcome : WriteOutcome) (fresh : Nat → Fresh) (ctrl data : List UInt8)
  | send (outcome : WriteOutcome) (fresh : Nat → Fresh) (data : List UInt8)
  | sendCache (outcome : WriteOutcome) (retry : Bool)

namespace SendCall

/-- A call and what it returns. -/
def perform (channel : TNestChannel) : SendCall → Option Sent
  | .sendEx outcome fresh ctrl data => channel.sendEx outcome fresh ctrl data
  | .send outcome fresh data => channel.send outcome fresh data
  | .sendCache outcome retry => channel.sendCache outcome retry

/-- The bytes passed to a call. -/
def passed : SendCall → List UInt8
  | .sendEx _ _ ctrl data => ctrl ++ data
  | .send _ _ data => data
  | .sendCache _ _ => []

/-- The lengths are 32-bit numbers. -/
def Fits : SendCall → Prop
  | .sendEx _ _ ctrl data => ctrl.length < 4294967296 ∧ data.length < 4294967296
  | .send _ _ data => data.length < 4294967296
  | .sendCache _ _ => True

/-- Some allocation fails. -/
def OutOfMemory : SendCall → Prop
  | .sendEx _ fresh _ _ | .send _ fresh _ => ∃ call, fresh call = none
  | .sendCache _ _ => False

/-- The write of the call is to be tried again. -/
def Retry : SendCall → Prop
  | .sendEx outcome _ _ _ | .send outcome _ _ => outcome.Retry
  | .sendCache _ _ => False

/-- There are at most 2^32 / 3 bytes in the write cache and in the call, and if `writev` fails with
`EAGAIN` or `EINTR`, the write cache has bytes already or the call has none. -/
def Safe (channel : TNestChannel) (call : SendCall) : Prop :=
  channel.w.content.length + call.passed.length ≤ 1431655765 ∧
    (call.Retry → channel.w.content = [] → call.passed = [])

end SendCall

/-- A channel, with what its socket accepted. -/
structure Output where
  channel : TNestChannel
  accepted : List UInt8
  /-- The bytes passed to calls that returned a number of bytes. -/
  passed : List UInt8

/-- Nothing has been sent. -/
def Output.start : Output := ⟨connected, [], []⟩

/-- A call that returns, and the bytes that have left. -/
def Output.Steps (before after : Output) (call : SendCall) : Prop :=
  ∃ sent, call.perform before.channel = some sent ∧ after =
    ⟨sent.channel, before.accepted ++ sent.accepted,
      before.passed ++ if 0 ≤ sent.ret then call.passed else []⟩

/-- Runs of calls from a connected channel. -/
def OutputReaches (state : Output) : Prop :=
  Relation.ReflTransGen (fun before after : Output => ∃ call : SendCall,
    call.Fits ∧ before.Steps after call) Output.start state

/-- Runs that meet the condition. -/
def SafeOutputReaches (state : Output) : Prop :=
  Relation.ReflTransGen (fun before after : Output => ∃ call : SendCall,
    call.Safe before.channel ∧ before.Steps after call) Output.start state

/-- What was passed in has left, or it is in the cache. -/
structure Output.Holds (state : Output) : Prop where
  modest : state.channel.w.Modest
  few : state.channel.w.content.length ≤ 1431655765
  passed_eq : state.accepted ++ state.channel.w.content = state.passed
  output : state.channel.OutputFits

variable {state : Output} {call : SendCall}

theorem Output.holds_start : Output.start.Holds where
  modest := CRawCache.modest_init
  few := Nat.zero_le _
  passed_eq := rfl
  output := ⟨rfl, by decide⟩

theorem Output.Holds.perform (holds : state.Holds) (safe : call.Safe state.channel) :
    Returns (call.perform state.channel) call.OutOfMemory
      (SendExPost state.channel call.passed) := by
  obtain ⟨few, pending⟩ := safe
  cases call with
  | sendEx outcome fresh ctrl data =>
      change _ + (ctrl ++ data).length ≤ _ at few
      rw [List.length_append, ← Nat.add_assoc] at few
      exact sendEx_eq holds.modest holds.output fresh few pending
  | send outcome fresh data =>
      have none_ctrl : state.channel.w.content.length + ([] : List UInt8).length + data.length ≤
          1431655765 := by
        rw [List.length_nil, Nat.add_zero]
        exact few
      exact sendEx_eq holds.modest holds.output fresh none_ctrl pending
  | sendCache outcome retry =>
      exact sendCache_eq holds.modest holds.few outcome retry

theorem Output.Holds.step {before after : Output} (holds : before.Holds)
    (safe : call.Safe before.channel) (steps : before.Steps after call) : after.Holds := by
  obtain ⟨sent, performs, rfl⟩ := steps
  obtain ⟨works, fails⟩ := (holds.perform safe).of_some performs
  by_cases positive : 0 ≤ sent.ret
  · obtain ⟨modest, content_eq, output⟩ := works positive
    have passed_eq : before.accepted ++ sent.accepted ++ sent.channel.w.content =
        before.passed ++ call.passed := by
      rw [List.append_assoc, content_eq, ← List.append_assoc, holds.passed_eq]
    have length_eq := congrArg List.length content_eq
    rw [List.length_append, List.length_append] at length_eq
    refine ⟨modest, ?_, ?_, output⟩
    · have := safe.1
      show sent.channel.w.content.length ≤ _
      omega
    · show _ = before.passed ++ ite _ _ _
      rw [if_pos positive]
      exact passed_eq
  · obtain ⟨same, none_accepted⟩ := fails (lt_of_not_ge positive)
    rw [same, none_accepted, if_neg positive, List.append_nil, List.append_nil]
    exact holds

theorem SafeOutputReaches.holds (reaches : SafeOutputReaches state) : state.Holds := by
  induction reaches with
  | refl => exact Output.holds_start
  | tail _ step induction =>
      obtain ⟨call, safe, steps⟩ := step
      exact induction.step safe steps

/-- In a run of safe calls no byte is lost, the output event is enabled if and only if the write
cache has bytes, and every further safe call returns unless memory is missing. -/
theorem safeOutputReaches_no_loss {state : Output} (reaches : SafeOutputReaches state) :
    state.accepted ++ state.channel.w.content = state.passed ∧
      (state.channel.oldEvents = true ↔ state.channel.w.content ≠ []) ∧
      ∀ call : SendCall, call.Safe state.channel → ¬call.OutOfMemory →
        (call.perform state.channel).isSome :=
  ⟨reaches.holds.passed_eq, reaches.holds.output.2, fun _ safe memory =>
    (reaches.holds.perform safe).isSome memory⟩

/-- Memory that is zero. -/
def zeros (_ : Nat) : Fresh := some fun _ => 0

/-- One of three bytes is accepted. -/
def partSent : Sent :=
  (connected.sendEx (.accepted 1) zeros [1] [2, 3]).get (by decide)

theorem safeOutputReaches_no_loss_sample :
    SafeOutputReaches ⟨partSent.channel, [1], [1, 2, 3]⟩ ∧ partSent.channel.w.content = [2, 3] ∧
      ([1] ++ partSent.channel.w.content = [1, 2, 3] ∧
        (partSent.channel.oldEvents = true ↔ partSent.channel.w.content ≠ []) ∧
        ∀ call : SendCall, call.Safe partSent.channel → ¬call.OutOfMemory →
          (call.perform partSent.channel).isSome) := by
  have reaches : SafeOutputReaches ⟨partSent.channel, [1], [1, 2, 3]⟩ := by
    refine Relation.ReflTransGen.single ⟨.sendEx (.accepted 1) zeros [1] [2, 3], ⟨by decide, ?_⟩,
      partSent, (Option.some_get _).symm, ?_⟩
    · rintro (retry | retry) <;> cases retry
    · have ret_eq : partSent.ret = 1 := by decide
      have accepted_eq : partSent.accepted = [1] := by decide
      rw [ret_eq, accepted_eq]
      rfl
  exact ⟨reaches, by decide, safeOutputReaches_no_loss reaches⟩

/-- Nothing is accepted. -/
def stalledSent : Sent :=
  (connected.sendEx .again zeros [1] [2]).get (by decide)

/-- When `writev` fails with `EAGAIN`, the bytes wait in the write cache without an output event. -/
theorem outputReaches_stalled : ∃ state, OutputReaches state ∧ state.accepted = [] ∧
    state.passed = [1, 2] ∧ state.channel.w.content = [1, 2] ∧ state.channel.oldEvents = false := by
  refine ⟨⟨stalledSent.channel, [], [1, 2]⟩, Relation.ReflTransGen.single
    ⟨.sendEx .again zeros [1] [2], ⟨by decide, by decide⟩, stalledSent, (Option.some_get _).symm,
      ?_⟩, rfl, rfl,
    by decide, by decide⟩
  have ret_eq : stalledSent.ret = 0 := by decide
  have accepted_eq : stalledSent.accepted = [] := by decide
  rw [ret_eq, accepted_eq]
  rfl

end TNestChannel

end Spp
