import Mathlib.Tactic

/-!
# The handler with pending actions

A `CNetHandler` of the type `ConnType_LongWithPending` has one connection and one current action.
The actions that come in the meantime wait in `_pending_action_list`.  When the current action ends,
`TryNextAction` takes the next one, after it has ended those that waited too long; only then the
callback of the ended action runs.

The callbacks are the user's: they may call `HandleRequest` of the same handler, which starts the
action at once if there is no current one.  So the stack is explicit: its first call is the one that
runs, and the results of the system calls, the clock and the user's requests are inputs.
-/

namespace Spp.AsyncFrame

/-- `_conn_state` -/
inductive ConnState
  | unconnected
  | connecting
  | connected
  deriving DecidableEq

/-- `_proc_state` -/
inductive ProcessState
  | idle
  | sending
  | recving
  | idleRecycle
  deriving DecidableEq

/-- What a handler reads of the actions, and its own protocol. -/
structure Requests where
  sendOnly : Nat → Bool
  timeout : Nat → Int
  length : Nat → Nat
  tcp : Bool

/-- A call on the stack. -/
inductive HandlerCall
  /-- The user's code that an ended action calls: `HandleError`, `HandleProcess`,
  `HandleSendFinished`. -/
  | callback
  /-- `DoErrorFinished`, `DoSendFinished` or `DoRecvFinished` waits for `TryNextAction`; then it
  ends this action. -/
  | finish (action : Nat)
  /-- `TryNextAction`, at the next look at the front of the list. -/
  | tryNext
  /-- `TryNextAction` waits for `HandleError(ETimeout)` of this action, and takes the front off. -/
  | expired (action : Nat)
  /-- `StartActionProcess` -/
  | start
  deriving DecidableEq

/-- What `Open` comes to. -/
inductive OpenResult
  | noSocket
  | noPoller
  | refused
  | progress
  | done
  deriving DecidableEq

/-- What `send` gives. -/
inductive SendResult
  | again
  | failed
  | sent (size : Nat)
  deriving DecidableEq

/-- What `recv` gives, with the user's check of the packet. -/
inductive RecvResult
  | again
  | failed
  /-- Bytes; `IAction::HandleInput` returns `packet`, and the buffer may be full. -/
  | received (size : Nat) (packet : Int) (full : Bool)
  deriving DecidableEq

/-- `CNetHandler` of the type `ConnType_LongWithPending`, with the stack. -/
structure CNetHandler where
  action : Option Nat
  pending : List (Nat × Int)
  connState : ConnState
  procState : ProcessState
  netfd : Bool
  haveSentLen : Nat
  haveRecvLen : Nat
  stack : List HandlerCall
  /-- The actions that were given to `HandleRequest`, in this order. -/
  given : List Nat
  /-- The actions that `StartActionProcess` has started, in this order. -/
  started : List Nat
  /-- The actions that were ended, by `HandleError`, `HandleProcess` or `HandleSendFinished`. -/
  completed : List Nat
  deriving DecidableEq

namespace CNetHandler

/-- A handler without actions. -/
def new : CNetHandler where
  action := none
  pending := []
  connState := .unconnected
  procState := .idle
  netfd := false
  haveSentLen := 0
  haveRecvLen := 0
  stack := []
  given := []
  started := []
  completed := []

variable (requests : Requests)

/-- A call is made. -/
def push (handler : CNetHandler) (call : HandlerCall) : CNetHandler :=
  { handler with stack := call :: handler.stack }

/-- An action is ended: its callback runs. -/
def complete (handler : CNetHandler) (action : Nat) : CNetHandler :=
  { handler with completed := action :: handler.completed }.push .callback

/-- `Close` -/
def close (handler : CNetHandler) : CNetHandler :=
  { handler with connState := .unconnected, procState := .idle, netfd := false }

/-- The current action is taken away, and `TryNextAction` runs before it is ended. -/
def release (handler : CNetHandler) (action : Nat) : CNetHandler :=
  ({ handler with procState := .idle, action := none }.push (.finish action)).push .tryNext

/-- `DoErrorFinished` -/
def doErrorFinished (handler : CNetHandler) : CNetHandler :=
  match handler.action with
  | none => handler.close.push .tryNext
  | some action => handler.close.release action

/-- `DoSendFinished` -/
def doSendFinished (handler : CNetHandler) (action : Nat) : CNetHandler :=
  let sent := { handler with haveSentLen := 0, haveRecvLen := 0 }
  if requests.sendOnly action then sent.release action else { sent with procState := .recving }

/-- `DoRecvFinished` -/
def doRecvFinished (handler : CNetHandler) (action : Nat) : CNetHandler :=
  { handler with haveSentLen := 0, haveRecvLen := 0 }.release action

/-- `DoSend`; none if there is no current action, or more is sent than there is. -/
def doSend (handler : CNetHandler) (result : SendResult) : Option CNetHandler :=
  match handler.action with
  | none => none
  | some action =>
      match result with
      | .again => some handler
      | .failed => some handler.doErrorFinished
      | .sent size =>
          let sent := { handler with haveSentLen := handler.haveSentLen + size }
          if requests.length action = sent.haveSentLen then
            some (sent.doSendFinished requests action)
          else if sent.haveSentLen < requests.length action then
            some sent
          else
            none

/-- `DoRecv`; none if there is no current action. -/
def doRecv (handler : CNetHandler) (result : RecvResult) : Option CNetHandler :=
  match handler.action with
  | none => none
  | some action =>
      match result with
      | .again => some handler
      | .failed => some handler.doErrorFinished
      | .received size packet full =>
          let received := { handler with haveRecvLen := handler.haveRecvLen + size }
          if 0 ≤ packet ∧ packet ≤ received.haveRecvLen then
            if packet > 0 then
              some (received.doRecvFinished action)
            else if full ∧ ¬ requests.tcp then
              some received.doErrorFinished
            else
              some received
          else
            some received.doErrorFinished

/-- `Open`; with UDP there is no `connect`. -/
def openSocket (handler : CNetHandler) (result : OpenResult) : CNetHandler :=
  match result with
  | .noSocket => handler.doErrorFinished
  | .noPoller => { handler with netfd := true }.doErrorFinished
  | .refused =>
      if requests.tcp then
        { handler with netfd := true }.doErrorFinished
      else
        { handler with netfd := true, connState := .connected }
  | .progress =>
      { handler with
        netfd := true
        connState := if requests.tcp then .connecting else .connected }
  | .done => { handler with netfd := true, connState := .connected }

/-- `StartActionProcess`, up to its look at the connection. -/
def startActionProcess (handler : CNetHandler) (action : Nat) : CNetHandler :=
  { handler with
    action := some action
    procState := .sending
    haveSentLen := 0
    haveRecvLen := 0
    started := handler.started ++ [action] }.push .start

/-- `HandleRequest` -/
def handleRequest (handler : CNetHandler) (action : Nat) (now : Int) : CNetHandler :=
  let noted := { handler with given := handler.given ++ [action] }
  match handler.action with
  | none => noted.startActionProcess action
  | some _ => { noted with pending := handler.pending ++ [(action, now)] }

/-- `TryNextAction` looks at the front of the list. -/
def tryNextAction (handler : CNetHandler) (now : Int) : CNetHandler :=
  match handler.pending with
  | [] => handler
  | (action, time) :: rest =>
      if time + requests.timeout action ≤ now then
        (handler.push (.expired action)).complete action
      else
        { handler with pending := rest }.startActionProcess action

/-- `InputNotify` -/
def inputNotify (handler : CNetHandler) (result : RecvResult) : Option CNetHandler :=
  if ¬ handler.netfd then
    some handler.doErrorFinished
  else if handler.procState = .idle then
    some (handler.close.push .tryNext)
  else if handler.procState ≠ .recving then
    some handler.doErrorFinished
  else if handler.action = none then
    some (handler.close.push .tryNext)
  else
    handler.doRecv requests result

/-- `OutputNotify`, after the connection was looked at. -/
def outputConnected (handler : CNetHandler) (result : SendResult) : Option CNetHandler :=
  if handler.connState ≠ .connected ∨ handler.procState ≠ .sending ∨ handler.action = none then
    some handler.doErrorFinished
  else
    handler.doSend requests result

/-- `OutputNotify`; `error` is what `getsockopt` says. -/
def outputNotify (handler : CNetHandler) (error : Bool) (result : SendResult) :
    Option CNetHandler :=
  if ¬ handler.netfd then
    some handler.doErrorFinished
  else if handler.connState = .connecting then
    if error then
      some handler.doErrorFinished
    else
      { handler with connState := .connected }.outputConnected requests result
  else
    handler.outputConnected requests result

/-- `TimerNotify` -/
def timerNotify (handler : CNetHandler) : CNetHandler :=
  match handler.procState with
  | .idleRecycle => handler
  | .idle => { handler with procState := .idleRecycle }
  | _ => handler.doErrorFinished

/-- What happens next. -/
inductive Event
  /-- A callback, or the frame if none runs, calls `HandleRequest` with a new action. -/
  | request (action : Nat) (now : Int)
  | input (result : RecvResult)
  | output (error : Bool) (result : SendResult)
  | hangup
  | timer
  /-- A callback returns. -/
  | back
  /-- The call at the top of the stack goes on; `now` is the clock. -/
  | goOn (now : Int)
  /-- `StartActionProcess` has no connection and opens one. -/
  | opened (result : OpenResult)
  | sent (result : SendResult)
  deriving DecidableEq

/-- One step of the running call; there is none if the event is not one of this call. -/
def run (handler : CNetHandler) (call : HandlerCall) (event : Event) : Option CNetHandler :=
  match call, event with
  | .callback, .request action now =>
      if action ∈ handler.given then none
      else some ((handler.push .callback).handleRequest action now)
  | .callback, .back => some handler
  | .finish action, .goOn _ => some (handler.complete action)
  | .tryNext, .goOn now => some (handler.tryNextAction requests now)
  | .expired _, .goOn _ =>
      some ({ handler with pending := handler.pending.tail }.push .tryNext)
  | .start, .opened result =>
      if handler.connState = .unconnected then some (handler.openSocket requests result) else none
  | .start, .sent result =>
      if handler.connState = .unconnected then none else handler.doSend requests result
  | _, _ => none

/-- A call from outside, while no call runs. -/
def notify (handler : CNetHandler) : Event → Option CNetHandler
  | .request action now =>
      if action ∈ handler.given then none else some (handler.handleRequest action now)
  | .input result => handler.inputNotify requests result
  | .output error result => handler.outputNotify requests error result
  | .hangup => some handler.doErrorFinished
  | .timer => some handler.timerNotify
  | _ => none

/-- The call on top of the stack goes on, or the handler is notified. -/
def step (handler : CNetHandler) (event : Event) : Option CNetHandler :=
  match handler.stack with
  | [] => handler.notify requests event
  | call :: rest => { handler with stack := rest }.run requests call event

/-- Some event leads from one state to the other. -/
def Step (before after : CNetHandler) : Prop :=
  ∃ event, before.step requests event = some after

end CNetHandler

end Spp.AsyncFrame
