import Spp.Comm.ConnSet
import Spp.Lib.Loop

/-!
# Output of a client connection, `CClientUnit::OutputNotify`

`OutputNotify` of `async/client_unit.cpp` sends the messages of `_send_que`.  When `send` fails with
`EAGAIN` or takes a part of a message, it asks for another output event and calls `send` again at
once; it does not leave the loop before the queue is empty or the connection is deleted.  So it does
not return if `send` stops taking bytes while there are some left.

The read cache and the poller are left out; output does not look at them.
-/

namespace Spp

/-- `_io_state` -/
inductive CConnState where
  | connecting
  | disconnect
  | connected
  deriving DecidableEq

/-- `_logic_state` -/
inductive ConState where
  | idle
  | terminate
  | inProcess
  | busy
  | notConnected
  | connecting
  deriving DecidableEq

/-- `_subtype` of the session. -/
inductive SubStype where
  | tcp
  | udp
  | tcpMultiCon
  | unknown

/-- What `handle_proc` returns. -/
inductive ConResult where
  | succ
  | quit
  | backToIdle
  | procErr
  deriving DecidableEq

/-- What output works on in a `CClientUnit`; `sendQue` has the data of the messages. -/
structure CClientUnit where
  ioState : CConnState
  logicState : ConState
  sendQue : List (List UInt8)
  haveSent : Nat
  totalSend : Nat
  subtype : SubStype

/-- What one call of `send` and the calls after it do. -/
structure OutputInput where
  outcome : SocketOutcome
  /-- What `_pack_cb_f` does to the state of the connection; it queues no message. -/
  packCb : ConState → ConState
  /-- What `_proc_f` does to the state, what it returns, and the messages that it queues. -/
  procF : ConState → ConState × Int × List (List UInt8)
  connectErrno : Option Nat

/-- `EINTR`, `EAGAIN` and `EINPROGRESS`. -/
def Transient (errno : Nat) : Prop := errno = 4 ∨ errno = 11 ∨ errno = 115

instance (errno : Nat) : Decidable (Transient errno) := inferInstanceAs (Decidable (_ ∨ _ ∨ _))

/-- What `OutputNotify` returns, after so many calls of `send`. -/
structure Output where
  ret : Int
  calls : Nat
  /-- The connection, if it is not deleted. -/
  unit : Option CClientUnit

namespace CClientUnit

/-- `do_connect`: whether it succeeds. -/
def doConnect (unit : CClientUnit) (connectErrno : Option Nat) : Bool × CClientUnit :=
  match unit.subtype, connectErrno with
  | .unknown, _ => (false, unit)
  | .udp, _ | _, none => (true, { unit with ioState := .connected })
  | _, some errno =>
      if errno ≠ 4 ∧ errno ≠ 115 then
        (true, { unit with ioState := .disconnect })
      else
        (true, { unit with ioState := .connecting })

/-- `handle_proc` -/
def handleProc (unit : CClientUnit) (input : OutputInput) : ConResult × CClientUnit :=
  let (logicState, procRet, queued) := input.procF unit.logicState
  let result :=
    if logicState = .terminate then .quit
    else if logicState = .idle then .backToIdle
    else if procRet = 0 then .succ
    else .procErr
  (result, { unit with logicState, sendQue := unit.sendQue ++ queued })

/-- `handle_event(EVENT_SHUTDOWN_COM)` -/
def shutdownCom (unit : CClientUnit) (input : OutputInput) : ConResult × CClientUnit :=
  let logicState := unit.sendQue.foldl (fun state _ => input.packCb state) unit.logicState
  { unit with logicState, sendQue := [] }.handleProc input

/-- `handle_event(EVENT_SEND_SUCC)` -/
def sendSucc (unit : CClientUnit) (input : OutputInput) : CClientUnit :=
  { unit with logicState := input.packCb unit.logicState, sendQue := unit.sendQue.tail }

/-- The part of a round after an error that is not transient. -/
def sendError (unit : CClientUnit) (input : OutputInput) (calls : Nat) :
    Output ⊕ (CClientUnit × Nat) :=
  let (result, unit) := unit.shutdownCom input
  if result = .quit then
    .inl ⟨-1, calls, none⟩
  else
    let (succ, unit) := unit.doConnect input.connectErrno
    if succ then .inr (unit, calls) else .inl ⟨-1, calls, none⟩

/-- The part of a round after some bytes have been taken. -/
def sendTaken (unit : CClientUnit) (input : OutputInput) (ret : Nat) : CClientUnit :=
  let haveSent := unit.haveSent + ret
  if haveSent = unit.totalSend then
    { unit with haveSent := 0, totalSend := 0 }.sendSucc input
  else
    { unit with haveSent }

/-- The call of `send` for the first message, and what follows it. -/
def sendFront (unit : CClientUnit) (input : OutputInput) (calls : Nat) :
    Output ⊕ (CClientUnit × Nat) :=
  match input.outcome with
  | .failed errno =>
      if Transient errno then .inr (unit, calls) else unit.sendError input calls
  | .accepted count =>
      .inr (unit.sendTaken input (min count (unit.totalSend - unit.haveSent)), calls)

/-- One round of the loop, with the calls of `send` so far.  The bytes behind a message are not to
be sent. -/
def outputRound (inputs : Nat → OutputInput) (state : CClientUnit × Nat) :
    Option (Output ⊕ (CClientUnit × Nat)) :=
  match state.1.sendQue with
  | [] => some (.inl ⟨0, state.2, some { state.1 with logicState := .busy }⟩)
  | pack :: _ =>
      if pack.length < state.1.haveSent then
        none
      else
        some ({ state.1 with totalSend := pack.length }.sendFront (inputs state.2) (state.2 + 1))

/-- `OutputNotify` for a connection of a `SESSION_DATA`. -/
def outputNotify (unit : CClientUnit) (inputs : Nat → OutputInput) (rounds : Nat) : Option Output :=
  if unit.ioState = .connecting then
    some ⟨0, 0, some { unit with ioState := .connected }⟩
  else
    let unit := { unit with logicState := .inProcess }
    if unit.sendQue = [] then
      some ⟨0, 0, some unit⟩
    else
      loopFor (outputRound inputs) rounds (unit, 0)

end CClientUnit

namespace OutputInput

/-- `send` fails with an error that is not transient. -/
def ShutsDown (input : OutputInput) : Prop :=
  ∃ errno, input.outcome = .failed errno ∧ ¬Transient errno

/-- `send` fails with a transient error, or takes none of the bytes that are left. -/
def Idles (input : OutputInput) (left : Nat) : Prop :=
  match input.outcome with
  | .failed errno => Transient errno
  | .accepted count => count = 0 ∧ 0 < left

end OutputInput

namespace CClientUnit

/-- Another round follows. -/
def GoesOn (inputs : Nat → OutputInput) (before after : CClientUnit × Nat) : Prop :=
  outputRound inputs before = some (.inr after)

/-- `OutputNotify` comes to this state, after so many calls of `send`. -/
def Reached (inputs : Nat → OutputInput) (unit : CClientUnit) : CClientUnit × Nat → Prop :=
  Relation.ReflTransGen (GoesOn inputs) ({ unit with logicState := .inProcess }, 0)

/-- More has been sent than the first message has; this happens when a message is queued after the
connection was shut down in the middle of another one. -/
def Overruns (unit : CClientUnit) : Prop :=
  ∃ pack rest, unit.sendQue = pack :: rest ∧ pack.length < unit.haveSent

/-- There is a message to be sent, and `send` does nothing from now on. -/
def Stalls (inputs : Nat → OutputInput) (unit : CClientUnit) (calls : Nat) : Prop :=
  ∃ pack rest, unit.sendQue = pack :: rest ∧ unit.haveSent ≤ pack.length ∧
    ∀ later ≥ calls, (inputs later).Idles (pack.length - unit.haveSent)

/-- The bytes that are left to be sent, and the messages. -/
def work (unit : CClientUnit) : Nat :=
  (unit.sendQue.map fun pack => pack.length + 1).sum - unit.haveSent

/-- The bytes of the first message that are left. -/
def left (unit : CClientUnit) : Nat := (unit.sendQue.head?.elim 0 List.length) - unit.haveSent

variable {unit after : CClientUnit} {input : OutputInput} {inputs : Nat → OutputInput}
  {pack : List UInt8} {rest : List (List UInt8)} {calls : Nat} {state next : CClientUnit × Nat}

theorem work_of_cons (queue_eq : unit.sendQue = pack :: rest) :
    unit.work = pack.length + 1 + (rest.map fun pack => pack.length + 1).sum - unit.haveSent := by
  rw [work, queue_eq, List.map_cons, List.sum_cons]

/-! ## Rounds -/

theorem outputRound_of_nil (done : unit.sendQue = []) (calls : Nat) :
    outputRound inputs (unit, calls) =
      some (.inl ⟨0, calls, some { unit with logicState := .busy }⟩) := by
  rw [outputRound]
  dsimp only
  rw [done]

theorem outputRound_of_cons (queue_eq : unit.sendQue = pack :: rest) (calls : Nat) :
    outputRound inputs (unit, calls) =
      if pack.length < unit.haveSent then none
      else some ({ unit with totalSend := pack.length }.sendFront (inputs calls) (calls + 1)) := by
  unfold outputRound
  dsimp only
  rw [queue_eq]

theorem sendFront_calls (goes_on : unit.sendFront input calls = .inr next) : next.2 = calls := by
  unfold sendFront sendError at goes_on
  grind

/-- Every round makes one call of `send`. -/
theorem calls_of_goesOn (goes_on : GoesOn inputs state next) : next.2 = state.2 + 1 := by
  obtain ⟨unit, calls⟩ := state
  unfold GoesOn at goes_on
  cases queue_eq : unit.sendQue with
  | nil =>
      rw [outputRound_of_nil queue_eq] at goes_on
      cases goes_on
  | cons pack rest =>
      rw [outputRound_of_cons queue_eq] at goes_on
      split at goes_on
      · cases goes_on
      · exact sendFront_calls (Option.some.inj goes_on)

/-- A call that does not shut the connection down does nothing, or some of the work. -/
theorem outputRound_soft (queue_eq : unit.sendQue = pack :: rest)
    (inside : unit.haveSent ≤ pack.length) (soft : ¬(inputs calls).ShutsDown) :
    ∃ after, outputRound inputs (unit, calls) = some (.inr (after, calls + 1)) ∧
      ((inputs calls).Idles (pack.length - unit.haveSent) ∧ after.sendQue = unit.sendQue ∧
          after.haveSent = unit.haveSent ∨
        ¬(inputs calls).Idles (pack.length - unit.haveSent) ∧ after.work < unit.work) := by
  have before := work_of_cons queue_eq
  rw [outputRound_of_cons queue_eq, if_neg (not_lt.2 inside), sendFront]
  unfold OutputInput.Idles
  cases outcome_eq : (inputs calls).outcome with
  | failed errno =>
      have transient : Transient errno := by
        by_contra hard
        exact soft ⟨errno, outcome_eq, hard⟩
      exact ⟨_, congrArg some (if_pos transient), Or.inl ⟨transient, rfl, rfl⟩⟩
  | accepted count =>
      refine ⟨_, rfl, ?_⟩
      dsimp only
      unfold sendTaken
      dsimp only
      split
      · refine Or.inr ⟨by omega, ?_⟩
        rw [sendSucc, work]
        dsimp only
        rw [queue_eq, List.tail_cons]
        omega
      · by_cases none_taken : count = 0
        · exact Or.inl ⟨⟨none_taken, by omega⟩, rfl, by simp [none_taken]⟩
        · refine Or.inr ⟨fun idles => none_taken idles.1, ?_⟩
          rw [before, work]
          dsimp only
          rw [queue_eq, List.map_cons, List.sum_cons]
          omega

/-- After a round that stalls comes one that stalls. -/
theorem Stalls.goesOn (stalls : Stalls inputs unit calls) :
    ∃ after, GoesOn inputs (unit, calls) (after, calls + 1) ∧ Stalls inputs after (calls + 1) := by
  obtain ⟨pack, rest, queue_eq, inside, idle⟩ := stalls
  have soft : ¬(inputs calls).ShutsDown := by
    rintro ⟨errno, outcome_eq, hard⟩
    have idles := idle calls le_rfl
    rw [OutputInput.Idles, outcome_eq] at idles
    exact hard idles
  obtain ⟨after, goes_on, ⟨-, queue, sent⟩ | ⟨busy, -⟩⟩ := outputRound_soft queue_eq inside soft
  · refine ⟨after, goes_on, pack, rest, queue.trans queue_eq, sent ▸ inside, fun later le => ?_⟩
    rw [sent]
    exact idle later (Nat.le_of_succ_le le)
  · exact absurd (idle calls le_rfl) busy

theorem Stalls.never (stalls : Stalls inputs unit calls) (rounds : Nat) :
    loopFor (outputRound inputs) rounds (unit, calls) = none := by
  have step : ∀ state : CClientUnit × Nat, Stalls inputs state.1 state.2 →
      ∃ next, outputRound inputs state = some (.inr next) ∧ Stalls inputs next.1 next.2 := by
    intro state stalls
    obtain ⟨after, goes_on, still⟩ := stalls.goesOn
    exact ⟨_, goes_on, still⟩
  exact loopFor_never step rounds (unit, calls) stalls

/-! ## Calls of `OutputNotify` -/

/-- If the loop returns, it does so from every state that it comes to. -/
theorem loopFor_of_reached {start : CClientUnit × Nat} {rounds : Nat} {output : Output}
    (reached : Relation.ReflTransGen (GoesOn inputs) start state)
    (returns : loopFor (outputRound inputs) rounds start = some output) :
    ∃ more, loopFor (outputRound inputs) more state = some output ∧
      more + state.2 = rounds + start.2 := by
  induction reached with
  | refl => exact ⟨rounds, returns, rfl⟩
  | @tail before after _ goes_on induction =>
      obtain ⟨more, returned, sum⟩ := induction
      cases more with
      | zero => cases returned
      | succ more =>
          rw [loopFor, show outputRound inputs before = _ from goes_on] at returned
          exact ⟨more, returned, by rw [calls_of_goesOn goes_on]; omega⟩

/-- What a call of `OutputNotify` comes to if it returns. -/
structure Ends (inputs : Nat → OutputInput) (bound : Nat) (state : CClientUnit × Nat) : Prop where
  inside : ¬state.1.Overruns
  moves : ¬Stalls inputs state.1 state.2
  /-- `send` shuts the connection down in the first calls only. -/
  early : (inputs state.2).ShutsDown → state.2 < bound

theorem ends_of_returns {rounds : Nat} {output : Output} (reached : Reached inputs unit state)
    (returns : loopFor (outputRound inputs) rounds ({ unit with logicState := .inProcess }, 0) =
      some output) : Ends inputs rounds state := by
  obtain ⟨more, returned, sum⟩ := loopFor_of_reached reached returns
  cases more with
  | zero => cases returned
  | succ more =>
      refine ⟨?_, fun stalls => ?_, fun _ => by simp only at sum; omega⟩
      · rintro ⟨pack, rest, queue_eq, short⟩
        rw [loopFor, show outputRound inputs state = none from
          (outputRound_of_cons queue_eq _).trans (if_pos short)] at returned
        cases returned
      · rw [stalls.never] at returned
        cases returned

theorem loopFor_of_ends {bound : Nat}
    (ends : ∀ state, Reached inputs unit state → Ends inputs bound state) :
    ∃ rounds output, loopFor (outputRound inputs) rounds
      ({ unit with logicState := .inProcess }, 0) = some output := by
  -- while the connection may be shut down the calls count, later the work falls, or the next call
  -- that does some of it comes nearer
  let measure (state : CClientUnit × Nat) : Nat × Nat × Nat :=
    (bound - state.2, state.1.work,
      callsUntil (fun call => ¬(inputs call).Idles state.1.left) state.2)
  have founded : WellFounded (InvImage (Prod.Lex (· < ·) (Prod.Lex (· < ·) (· < ·))) measure) :=
    InvImage.wf _ (wellFounded_lt.prod_lex (wellFounded_lt.prod_lex wellFounded_lt))
  have step : ∀ state, Reached inputs unit state →
      (∃ output, outputRound inputs state = some (.inl output) ∧ True) ∨
        ∃ after, outputRound inputs state = some (.inr after) ∧ Reached inputs unit after ∧
          InvImage (Prod.Lex (· < ·) (Prod.Lex (· < ·) (· < ·))) measure after state := by
    rintro ⟨before, calls⟩ reached
    obtain ⟨inside, moves, early⟩ := ends _ reached
    cases queue_eq : before.sendQue with
    | nil => exact Or.inl ⟨_, outputRound_of_nil queue_eq calls, trivial⟩
    | cons pack rest =>
        have front : before.haveSent ≤ pack.length := by
          by_contra short
          exact inside ⟨pack, rest, queue_eq, not_le.1 short⟩
        have left_eq : before.left = pack.length - before.haveSent := by
          rw [left, queue_eq, List.head?_cons, Option.elim_some]
        by_cases counted : calls < bound
        · cases round_eq : outputRound inputs (before, calls) with
          | none =>
              rw [outputRound_of_cons queue_eq, if_neg (not_lt.2 front)] at round_eq
              cases round_eq
          | some result =>
              cases result with
              | inl output => exact Or.inl ⟨output, rfl, trivial⟩
              | inr after =>
                  refine Or.inr ⟨after, rfl, reached.tail round_eq, Prod.Lex.left _ _ ?_⟩
                  have calls_eq := calls_of_goesOn round_eq
                  dsimp only at calls_eq ⊢
                  omega
        · have soft : ¬(inputs calls).ShutsDown := fun hard => counted (early hard)
          obtain ⟨after, goes_on, progress⟩ := outputRound_soft queue_eq front soft
          refine Or.inr ⟨_, goes_on, reached.tail goes_on, ?_⟩
          have first : bound - (calls + 1) = bound - calls := by omega
          refine Prod.Lex.right' _ first.le ?_
          obtain ⟨idle, queue, sent⟩ | ⟨-, less⟩ := progress
          · have same_work : after.work = before.work := by rw [work, work, queue, sent]
            have same_left : after.left = before.left := by rw [left, left, queue, sent]
            obtain ⟨later, le, busy⟩ :
                ∃ later ≥ calls, ¬(inputs later).Idles before.left := by
              by_contra never
              push Not at never
              exact moves ⟨pack, rest, queue_eq, front, fun later le => left_eq ▸ never later le⟩
            refine Prod.Lex.right' _ same_work.le ?_
            dsimp only
            rw [same_left]
            exact callsUntil_succ_lt le busy (not_not_intro (left_eq ▸ idle))
          · exact Prod.Lex.left _ _ less
  obtain ⟨rounds, output, returns, -⟩ := loopFor_returns founded step _ .refl
  exact ⟨rounds, output, returns⟩

/-- A call of `OutputNotify` that comes to its loop returns if and only if none of the states that
it comes to overruns or stalls, and `send` shuts the connection down in finitely many calls. -/
theorem outputNotify_returns_iff (inputs : Nat → OutputInput) (unit : CClientUnit) :
    (∃ rounds output, unit.outputNotify inputs rounds = some output) ↔
      unit.ioState = .connecting ∨
        ∃ bound, ∀ state, Reached inputs unit state → Ends inputs bound state := by
  have loop_iff : (∃ rounds output, loopFor (outputRound inputs) rounds
      ({ unit with logicState := .inProcess }, 0) = some output) ↔
      ∃ bound, ∀ state, Reached inputs unit state → Ends inputs bound state := by
    constructor
    · rintro ⟨rounds, output, returns⟩
      exact ⟨rounds, fun state reached => ends_of_returns reached returns⟩
    · rintro ⟨bound, ends⟩
      exact loopFor_of_ends ends
  rw [← loop_iff]
  unfold outputNotify
  by_cases connecting : unit.ioState = .connecting
  · exact iff_of_true ⟨0, _, if_pos connecting⟩ (Or.inl connecting)
  · simp only [connecting, if_false, false_or]
    by_cases done : unit.sendQue = []
    · have first := @outputRound_of_nil { unit with logicState := .inProcess } inputs done 0
      exact iff_of_true ⟨0, _, if_pos done⟩ ⟨1, _, by rw [loopFor, first]; rfl⟩
    · simp only [done, if_false]

/-- A connection with one message of one byte. -/
def oneMessage : CClientUnit := ⟨.connected, .busy, [[7]], 0, 0, .tcp⟩

/-- `_pack_cb_f` leaves the state as it is, and `_proc_f` queues these messages. -/
def sends (queued : List (List UInt8)) (outcome : SocketOutcome) : OutputInput where
  outcome
  packCb := id
  procF := fun state => (state, 0, queued)
  connectErrno := none

/-- The outcomes of `send`; in the end the peer does not read. -/
def outcomes (call : Nat) : SocketOutcome :=
  [.failed 11, .accepted 1, .accepted 4, .failed 104, .accepted 1].getD call (.failed 11)

/-- The first message is sent in two calls, the second is lost when the connection is shut down, and
`_proc_f` queues another one. -/
theorem outputNotify_returns_requeued :
    ∃ bound, ∀ state, Reached (fun call => sends [[6]] (outcomes call))
      { oneMessage with sendQue := [[7, 8, 9], [5]], haveSent := 1 } state →
        Ends (fun call => sends [[6]] (outcomes call)) bound state :=
  ((outputNotify_returns_iff _ _).1 ⟨6, _, rfl⟩).resolve_left (by decide)

/-- The peer does not read: every call fails with `EAGAIN`, the loop goes on with the same message,
and it never ends. -/
theorem outputNotify_again_never :
    (∀ calls, ∃ after : CClientUnit, after.sendQue = [[7]] ∧ after.haveSent = 0 ∧
      outputRound (fun _ => sends [] (.failed 11))
        ({ oneMessage with logicState := .inProcess }, calls) = some (.inr (after, calls + 1))) ∧
      ∀ rounds, (oneMessage.outputNotify (fun _ => sends [] (.failed 11)) rounds).isNone := by
  refine ⟨fun calls => ⟨_, rfl, rfl, rfl⟩, fun rounds => ?_⟩
  have stalls : Stalls (fun _ => sends [] (.failed 11))
      { oneMessage with logicState := .inProcess } 0 :=
    ⟨_, _, rfl, by decide, fun _ _ => Or.inr (Or.inl rfl)⟩
  exact Option.isNone_iff_eq_none.2 (stalls.never rounds)

end CClientUnit

end Spp
