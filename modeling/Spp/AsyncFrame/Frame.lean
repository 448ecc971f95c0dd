import Mathlib.Tactic

/-!
# The async frame

`CAsyncFrame::Process` takes a message through the states of a plugin.  A state makes an action set,
the actions of the set go into the network, and when the last one of them has ended the state
chooses the next one.  All of it runs on one stack: user callbacks call `Process`, the start of an
action may end it at once, and the end of the last action of a set starts the next set.

The stack is explicit here.  Its first call is the one that runs; what the user's functions and the
network do next is an input.  `CAsyncFrame` and `CActionSet` return no more to a call whose result
does not matter: `HandleEncode`, once it has made a set, and the callers of it only return 0.

Nothing is defined after a deleted set was read, and no step follows.
-/

namespace Spp.AsyncFrame

/-- A set of actions of a message, and how many of them have ended. -/
structure CActionSet where
  msg : Nat
  actions : List Nat
  finished : Nat
  deriving DecidableEq

/-- A call on the stack. -/
inductive Call
  /-- `_cbFunc[CBType_Init]` of the user, in `Process`. -/
  | init (msg : Nat)
  /-- `_cbFunc[CBType_Overload]` of the user, in `Process`. -/
  | overload (msg : Nat)
  /-- `IState::HandleEncode` of the user, in `HandleEncode`, for a new set. -/
  | stateEncode (msg set : Nat)
  /-- `StartAction`, at the next one of the actions that are left. -/
  | loop (set : Nat) (rest : List Nat) (timeout : Bool)
  /-- `IAction::HandleEncode` of the user, in `CActionInfo::HandleStart`; `StartAction` waits. -/
  | actionEncode (set action : Nat) (rest : List Nat)
  /-- A handler of the network; for the start of an action if `StartAction` waits for it. -/
  | network (start : Option (Nat × List Nat))
  /-- `TryNextAction` waits for `HandleError` of an action of its list that has timed out; the
  action is still the first one of the list. -/
  | expiring (set action : Nat)
  /-- `StartAction` waits for `HandleError` of an action that could not be started. -/
  | failed (set : Nat) (rest : List Nat) (timeout : Bool)
  /-- `IAction::HandleProcess` or `IAction::HandleError` of the user, in `CActionInfo`. -/
  | actionEnd (set : Nat)
  /-- `IState::HandleProcess` of the user, in `HandleProcess`. -/
  | stateProcess (msg set : Nat)
  /-- `_cbFunc[CBType_Fini]` of the user. -/
  | fini (msg : Nat)
  deriving DecidableEq

/-- The user's functions, which can call `Process`. -/
def Call.isUser : Call → Bool
  | .loop _ _ _ => false
  | .network _ => false
  | .expiring _ _ => false
  | .failed _ _ _ => false
  | _ => true

/-- What the user sets up before the first message. -/
structure Config where
  hasInit : Bool
  hasFini : Bool
  hasOverload : Bool
  overloadLimit : Int
  mapState : Int → Bool

/-- `CAsyncFrame`, with the sets, the actions in the network and the stack. -/
structure CAsyncFrame where
  /-- `_nRequestCount`, an `int`. -/
  requestCount : Int
  /-- `_pNeedDeleteAS` -/
  needDelete : Option Nat
  sets : Nat → CActionSet
  /-- The sets that are not deleted. -/
  alive : Nat → Bool
  /-- The number of the sets made so far. -/
  made : Nat
  /-- The actions that handlers of the network have, each with its set. -/
  network : List (Nat × Nat)
  stack : List Call
  /-- The sets whose actions are under way. -/
  working : List Nat
  /-- The messages given to `Process`, and those that were not refused. -/
  given : List Nat
  accepted : List Nat
  /-- The messages whose handling came to an end: after `Init`, by a state that cannot be encoded,
  or by the choice of the last state. -/
  ended : List Nat
  /-- The messages for which the `Fini` callback was called. -/
  finis : List Nat
  recycled : List Nat
  /-- A deleted set was read. -/
  stale : Bool

namespace CAsyncFrame

/-- A frame that has not been given a message. -/
def new : CAsyncFrame where
  requestCount := 0
  needDelete := none
  sets := fun _ => ⟨0, [], 0⟩
  alive := fun _ => false
  made := 0
  network := []
  stack := []
  working := []
  given := []
  accepted := []
  ended := []
  finis := []
  recycled := []
  stale := false

variable (config : Config)

/-- A call is made. -/
def push (frame : CAsyncFrame) (call : Call) : CAsyncFrame :=
  { frame with stack := call :: frame.stack }

/-- A set is read. -/
def read (frame : CAsyncFrame) (set : Nat) : CAsyncFrame :=
  { frame with stale := frame.stale || !frame.alive set }

/-- A set is written. -/
def setSet (frame : CAsyncFrame) (set : Nat) (value : CActionSet) : CAsyncFrame :=
  { frame with sets := Function.update frame.sets set value }

/-- A set is deleted. -/
def delete (frame : CAsyncFrame) (set : Nat) : CAsyncFrame :=
  { frame with alive := Function.update frame.alive set false }

/-- `_msgptr_mgr->Recycle` and `_nRequestCount--`. -/
def recycle (frame : CAsyncFrame) (msg : Nat) : CAsyncFrame :=
  { frame with recycled := msg :: frame.recycled, requestCount := frame.requestCount - 1 }

/-- The end of a request: the `Fini` callback, if there is one, and then `recycle`. -/
def finish (frame : CAsyncFrame) (msg : Nat) : CAsyncFrame :=
  if config.hasFini then
    { frame with ended := msg :: frame.ended, finis := msg :: frame.finis }.push (.fini msg)
  else
    { frame with ended := msg :: frame.ended }.recycle msg

/-- `HandleEncode`, up to `IState::HandleEncode`.  If there is no such state, the caller ends the
request. -/
def handleEncode (frame : CAsyncFrame) (id : Int) (msg : Nat) : CAsyncFrame :=
  if config.mapState id then
    { frame.setSet frame.made ⟨msg, [], 0⟩ with
      alive := Function.update frame.alive frame.made true
      made := frame.made + 1 }.push (.stateEncode msg frame.made)
  else
    frame.finish config msg

/-- `Process`, after the check of the limit. -/
def accept (frame : CAsyncFrame) (msg : Nat) : CAsyncFrame :=
  let counted :=
    { frame with accepted := msg :: frame.accepted, requestCount := frame.requestCount + 1 }
  if config.hasInit then counted.push (.init msg) else counted.handleEncode config 1 msg

/-- `Process` -/
def process (frame : CAsyncFrame) (msg : Nat) : CAsyncFrame :=
  let noted := { frame with given := msg :: frame.given }
  if config.overloadLimit > 0 ∧ frame.requestCount ≥ config.overloadLimit then
    if config.hasOverload then noted.push (.overload msg) else noted
  else
    noted.accept config msg

/-- `CActionSet::HandleFinished`; after the last action `HandleProcess` begins. -/
def handleFinished (frame : CAsyncFrame) (set : Nat) : CAsyncFrame :=
  let value := frame.sets set
  let counted := (frame.read set).setSet set { value with finished := value.finished + 1 }
  if value.actions.length = value.finished + 1 then
    { counted with working := counted.working.erase set }.push (.stateProcess value.msg set)
  else
    counted

/-- `HandleProcess`, after `IState::HandleProcess` gave the next state. -/
def handleProcess (frame : CAsyncFrame) (msg set : Nat) (nextState : Int) : CAsyncFrame :=
  let recycled :=
    match frame.needDelete with
    | none => frame
    | some old => frame.delete old
  let pending := { recycled with needDelete := some set }
  if nextState ≤ 0 then pending.finish config msg else pending.handleEncode config nextState msg

/-- The loop of `StartAction` goes on: the iterator is moved, and compared with the end. -/
def iterate (frame : CAsyncFrame) (set : Nat) (rest : List Nat) (timeout : Bool) : CAsyncFrame :=
  match rest with
  | [] => frame.read set
  | _ :: _ => (frame.read set).push (.loop set rest timeout)

/-- How the start of an action goes on in `StartAction`. -/
inductive Route
  /-- There is a route, or none is needed: `CActionInfo::HandleStart`. -/
  | start
  /-- The route type is invalid, or there is no route: `CActionInfo::HandleError`. -/
  | fails
  deriving DecidableEq

/-- What the running call does next. -/
inductive Move
  /-- A user's function, or the server if none of these runs, calls `Process`. -/
  | process (msg : Nat)
  /-- The poller or a timer calls a handler of the network. -/
  | event
  /-- `CActionSet::AddAction` -/
  | addAction (action : Nat)
  /-- A user's function returns; `timeout` is what `CheckMsgTimeout` says if actions are started. -/
  | back (value : Int) (timeout : Bool)
  /-- `StartAction` comes to the next action. -/
  | begin (route : Route)
  /-- A handler of the network ends one of its actions, with or without a callback of the user. -/
  | complete (set action : Nat) (callback : Bool)
  /-- `TryNextAction` of a handler ends the first action of its list, which has timed out. -/
  | expire (set action : Nat)
  /-- `TryNextAction`, called for a handler whose `TryNextAction` waits for `HandleError`, finds the
  same action at the front of the list, and ends it again. -/
  | look (set action : Nat)
  /-- A handler of the network returns. -/
  | leave (value : Int)
  /-- `HandleError` of an action has returned. -/
  | goOn
  deriving DecidableEq

/-- A user's function returns. -/
def back (frame : CAsyncFrame) (call : Call) (value : Int) (timeout : Bool) : Option CAsyncFrame :=
  match call with
  | .init msg =>
      some (if value ≤ 0 then frame.finish config msg else frame.handleEncode config value msg)
  | .overload _ => some frame
  | .stateEncode msg set =>
      if value ≠ 0 then
        some ((frame.delete set).finish config msg)
      else if (frame.sets set).actions = [] then
        some (frame.push (.stateProcess msg set))
      else
        some ({ frame with working := set :: frame.working }.push
          (.loop set (frame.sets set).actions timeout))
  | .actionEncode set action rest =>
      if value ≠ 0 then
        some ((frame.push (.failed set rest false)).push (.actionEnd set))
      else
        some ({ frame with network := (set, action) :: frame.network }.push
          (.network (some (set, rest))))
  | .actionEnd set => some (frame.handleFinished set)
  | .stateProcess msg set => some (frame.handleProcess config msg set value)
  | .fini msg => some (frame.recycle msg)
  | _ => none

/-- One step of the running call; there is none if the move is not one of this call. -/
def run (frame : CAsyncFrame) (call : Call) : Move → Option CAsyncFrame
  | .process msg =>
      if call.isUser ∧ msg ∉ frame.given then some ((frame.push call).process config msg) else none
  | .addAction action =>
      match call with
      | .stateEncode msg set =>
          if action ∈ (frame.sets set).actions then
            some (frame.push call)
          else
            some ((frame.setSet set { frame.sets set with
              actions := (frame.sets set).actions ++ [action] }).push (.stateEncode msg set))
      | _ => none
  | .back value timeout => frame.back config call value timeout
  | .begin route =>
      match call with
      | .loop set (action :: rest) timeout =>
          if timeout ∨ route = .fails then
            some (((frame.read set).push (.failed set rest timeout)).push (.actionEnd set))
          else
            some ((frame.read set).push (.actionEncode set action rest))
      | _ => none
  | .complete set action callback =>
      match call with
      | .network start =>
          if (set, action) ∈ frame.network then
            let ended := { frame with network := frame.network.erase (set, action) }.push
              (.network start)
            some (if callback then ended.push (.actionEnd set) else ended.handleFinished set)
          else
            none
      | _ => none
  | .expire set action =>
      match call with
      | .network start =>
          if (set, action) ∈ frame.network then
            let ended := { frame with network := frame.network.erase (set, action) }.push
              (.network start)
            some ((ended.push (.expiring set action)).push (.actionEnd set))
          else
            none
      | _ => none
  | .look set action =>
      match call with
      | .network start =>
          if .expiring set action ∈ frame.stack then
            some (((frame.read set).push (.network start)).push (.actionEnd set))
          else
            none
      | _ => none
  | .leave value =>
      match call with
      | .network none => some frame
      | .network (some (set, rest)) =>
          -- the last action has failed: the set may be deleted
          if value < 0 ∧ rest = [] then some frame else some (frame.iterate set rest false)
      | _ => none
  | .goOn =>
      match call with
      | .failed set rest timeout =>
          if rest = [] then some frame else some (frame.iterate set rest timeout)
      | .expiring _ _ => some frame
      | _ => none
  | .event => none

/-- One step; there is none after a deleted set was read. -/
def step (frame : CAsyncFrame) (move : Move) : Option CAsyncFrame :=
  if frame.stale then
    none
  else
    match frame.stack with
    | call :: rest => { frame with stack := rest }.run config call move
    | [] =>
        match move with
        | .process msg => if msg ∉ frame.given then some (frame.process config msg) else none
        | .event => some (frame.push (.network none))
        | _ => none

/-- Some move leads from one state to the other. -/
def Step (before after : CAsyncFrame) : Prop :=
  ∃ move, before.step config move = some after

end CAsyncFrame

end Spp.AsyncFrame
