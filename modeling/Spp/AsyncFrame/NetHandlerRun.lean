import Spp.AsyncFrame.NetHandler
import Spp.Lib.Executions

/-!
# Every action of a pending handler is ended once

An action that was given to the handler is in one place: it is the current one, it waits in the
list, a finish routine on the stack is about to end it, or it is ended.  If there is no current
action then no action waits, except while `TryNextAction` runs.
-/

namespace Spp.AsyncFrame

/-- The user's code or a finish routine. -/
def HandlerCall.plain : HandlerCall → Bool
  | .callback => true
  | .finish _ => true
  | _ => false

/-- The user's code and finish routines only. -/
def Plain (calls : List HandlerCall) : Prop := ∀ call ∈ calls, call.plain = true

namespace CNetHandler

variable {requests : Requests} {handler after : CNetHandler} {action : Nat}
  {rest : List HandlerCall}

/-- Whether this is the current action. -/
def current (handler : CNetHandler) (action : Nat) : Nat :=
  if handler.action = some action then 1 else 0

/-- How often this action waits in the list. -/
def waiting (handler : CNetHandler) (action : Nat) : Nat :=
  (handler.pending.map Prod.fst).count action

/-- Each action is ended once.  One that is not ended is the current action, or it waits in the
list, or a finish routine on the stack has taken it and ends it. -/
structure Exact (handler : CNetHandler) : Prop where
  once : handler.completed.Nodup
  place : ∀ action ∈ handler.given, action ∉ handler.completed →
    handler.current action + handler.waiting action + handler.stack.count (.finish action) = 1
  order : handler.started.Sublist handler.given

/-! ## What every step keeps -/

/-- Every action is in one place; one whose time is over is in the list still, and it is ended. -/
structure Counts (handler : CNetHandler) : Prop where
  places : ∀ action, handler.current action + handler.waiting action +
    handler.stack.count (.finish action) + handler.completed.count action =
      handler.given.count action + handler.stack.count (.expired action)
  nodup : handler.given.Nodup
  order : (handler.started ++ handler.pending.map Prod.fst).Sublist handler.given

/-- What runs, and whether there is a current action. -/
inductive Shape (handler : CNetHandler) : Prop
  /-- The user's code or a finish routine runs, or nothing. -/
  | free (plain : Plain handler.stack)
      (idle : handler.action = none → handler.pending = [])
  | trying (rest : List HandlerCall) (stack_eq : handler.stack = .tryNext :: rest)
      (plain : Plain rest) (idle : handler.action = none)
  | starting (rest : List HandlerCall) (action : Nat) (stack_eq : handler.stack = .start :: rest)
      (plain : Plain rest) (busy : handler.action = some action)
  /-- The callback of an action that has waited too long runs. -/
  | expiring (rest : List HandlerCall) (action : Nat) (time : Int) (left : List (Nat × Int))
      (stack_eq : handler.stack = .callback :: .expired action :: rest)
      (plain : Plain rest) (idle : handler.action = none)
      (pending_eq : handler.pending = (action, time) :: left)
      (ended : action ∈ handler.completed)
  /-- This callback has returned. -/
  | expired (rest : List HandlerCall) (action : Nat) (time : Int) (left : List (Nat × Int))
      (stack_eq : handler.stack = .expired action :: rest)
      (plain : Plain rest) (idle : handler.action = none)
      (pending_eq : handler.pending = (action, time) :: left)
      (ended : action ∈ handler.completed)

/-- The current action is being sent, or it waits for its answer. -/
def Working (handler : CNetHandler) : Prop :=
  handler.action = none ∨ handler.procState = .sending ∨ handler.procState = .recving

/-- What every safe step keeps. -/
structure Sound (handler : CNetHandler) : Prop where
  counts : Counts handler
  shape : Shape handler
  working : handler.Working

variable {result : SendResult} {event : Event} {call : HandlerCall}

theorem Counts.of_some (counts : Counts handler) (busy : handler.action = some action) :
    Counts { handler with action := some action } := by
  rw [← busy]
  exact counts

theorem count_plain (plain : Plain rest) (action : Nat) :
    rest.count (.expired action) = 0 := by
  rw [List.count_eq_zero]
  intro member
  cases plain _ member

theorem Counts.stack {calls : List HandlerCall} (counts : Counts handler)
    (finish_eq : ∀ action, calls.count (.finish action) = handler.stack.count (.finish action))
    (expired_eq : ∀ action, calls.count (.expired action) =
      handler.stack.count (.expired action)) :
    Counts { handler with stack := calls } := by
  refine { counts with places := fun action => ?_ }
  have places := counts.places action
  rw [← finish_eq, ← expired_eq] at places
  exact places

theorem Counts.pop (counts : Counts handler) (stack_eq : handler.stack = call :: rest)
    (not_finish : ∀ action, call ≠ .finish action)
    (not_expired : ∀ action, call ≠ .expired action) : Counts { handler with stack := rest } := by
  apply counts.stack
  · intro action
    rw [stack_eq, List.count_cons_of_ne (not_finish action)]
  · intro action
    rw [stack_eq, List.count_cons_of_ne (not_expired action)]

theorem Counts.release (counts : Counts handler) (busy : handler.action = some action) :
    Counts (handler.release action) := by
  constructor
  · intro other
    have places := counts.places other
    simp [current, waiting, busy, CNetHandler.release, push, List.count_cons] at places ⊢
    omega
  · exact counts.nodup
  · exact counts.order

theorem Sound.release (counts : Counts handler) (plain : Plain handler.stack)
    (busy : handler.action = some action) : Sound (handler.release action) := by
  refine ⟨counts.release busy, .trying (.finish action :: handler.stack) rfl ?_ rfl, .inl rfl⟩
  intro call member
  cases List.mem_cons.1 member with
  | inl new => rw [new, HandlerCall.plain]
  | inr old => exact plain call old

theorem Sound.tryNext (counts : Counts handler) (plain : Plain handler.stack)
    (idle : handler.action = none) : Sound (handler.push .tryNext) := by
  refine ⟨?_, .trying handler.stack rfl plain idle, .inl idle⟩
  apply counts.stack
  · intro action
    simp
  · intro action
    simp

/-! ## The functions of the handler -/

section

variable (counts : Counts handler) (plain : Plain handler.stack)
include counts plain

theorem Sound.close_tryNext (idle : handler.action = none) :
    Sound (handler.close.push .tryNext) := by
  have closed : Counts handler.close := { counts with }
  exact Sound.tryNext closed plain idle

theorem Sound.doErrorFinished : Sound handler.doErrorFinished := by
  have closed : Counts handler.close := { counts with }
  unfold CNetHandler.doErrorFinished
  cases action_eq : handler.action with
  | none => exact Sound.close_tryNext counts plain action_eq
  | some action => exact Sound.release closed plain action_eq

theorem Sound.busy (busy : handler.action = some action) (working : handler.Working) :
    Sound handler :=
  ⟨counts, .free plain fun idle => (by cases busy.symm.trans idle), working⟩

theorem Sound.doSendFinished (busy : handler.action = some action) :
    Sound (handler.doSendFinished requests action) := by
  unfold CNetHandler.doSendFinished
  dsimp only
  split
  · exact Sound.release { counts with } plain busy
  · exact Sound.busy { counts with } plain busy (.inr (.inr rfl))

theorem Sound.doSend (working : handler.Working)
    (sent : handler.doSend requests result = some after) : Sound after := by
  unfold CNetHandler.doSend at sent
  cases action_eq : handler.action with
  | none =>
      rw [action_eq] at sent
      cases sent
  | some action =>
      rw [action_eq] at sent
      cases result with
      | again =>
          cases sent
          exact Sound.busy counts plain action_eq working
      | failed =>
          cases sent
          exact Sound.doErrorFinished counts plain
      | sent size =>
          have moved : Counts { handler with
              action := some action
              haveSentLen := handler.haveSentLen + size } :=
            { counts.of_some action_eq with }
          dsimp only at sent
          split at sent
          · cases sent
            exact Sound.doSendFinished moved plain rfl
          · split at sent
            · cases sent
              exact Sound.busy moved plain rfl (.inr (working.resolve_left (by simp [action_eq])))
            · cases sent

theorem Sound.doRecv (working : handler.Working) {result : RecvResult}
    (received : handler.doRecv requests result = some after) : Sound after := by
  unfold CNetHandler.doRecv at received
  cases action_eq : handler.action with
  | none =>
      rw [action_eq] at received
      cases received
  | some action =>
      rw [action_eq] at received
      cases result with
      | again =>
          cases received
          exact Sound.busy counts plain action_eq working
      | failed =>
          cases received
          exact Sound.doErrorFinished counts plain
      | received size packet full =>
          have moved : Counts { handler with
              action := some action
              haveRecvLen := handler.haveRecvLen + size } :=
            { counts.of_some action_eq with }
          dsimp only at received
          split at received
          · split at received
            · cases received
              exact Sound.release { moved with } plain rfl
            · split at received
              · cases received
                exact Sound.doErrorFinished moved plain
              · cases received
                exact Sound.busy moved plain rfl (.inr (working.resolve_left (by simp [action_eq])))
          · cases received
            exact Sound.doErrorFinished moved plain

theorem Sound.openSocket (busy : handler.action = some action) (working : handler.Working)
    (result : OpenResult) : Sound (handler.openSocket requests result) := by
  have opened : Counts { handler with netfd := true } := { counts with }
  have connected : ∀ state, Sound { handler with netfd := true, connState := state } := fun state =>
    Sound.busy { counts with } plain busy working
  cases result with
  | noSocket => exact Sound.doErrorFinished counts plain
  | noPoller => exact Sound.doErrorFinished opened plain
  | refused =>
      unfold CNetHandler.openSocket
      dsimp only
      split
      · exact Sound.doErrorFinished opened plain
      · exact connected _
  | progress | done => exact connected _

theorem Sound.handleRequest (idle : handler.action = none → handler.pending = [])
    (working : handler.Working) (fresh : action ∉ handler.given) (now : Int) :
    Sound (handler.handleRequest action now) := by
  have nodup : (handler.given ++ [action]).Nodup :=
    List.nodup_append.2 ⟨counts.nodup, List.nodup_singleton action, by
      intro old member new single same
      rw [List.mem_singleton.1 single] at same
      exact fresh (same ▸ member)⟩
  unfold CNetHandler.handleRequest
  cases action_eq : handler.action with
  | none =>
      have empty := idle action_eq
      refine ⟨⟨?_, nodup, ?_⟩, .starting handler.stack action rfl plain rfl, .inr (.inl rfl)⟩
      · intro other
        have places := counts.places other
        simp [current, waiting, action_eq, startActionProcess, push, List.count_cons]
          at places ⊢
        omega
      · have order := counts.order
        simp only [startActionProcess, push, empty, List.map_nil, List.append_nil] at order ⊢
        exact order.append_right [action]
  | some old =>
      have queued : Counts { handler with
          given := handler.given ++ [action]
          pending := handler.pending ++ [(action, now)] } := by
        refine ⟨?_, nodup, ?_⟩
        · intro other
          have places := counts.places other
          simp only [current, waiting, List.map_append, List.map_cons, List.map_nil,
            List.count_append] at places ⊢
          omega
        · have order := counts.order.append_right [action]
          simpa using order
      exact Sound.busy (queued.of_some action_eq) plain rfl
        (.inr (working.resolve_left (by simp [action_eq])))

end

theorem Sound.tryNextAction (counts : Counts handler)
    (plain : Plain handler.stack) (idle : handler.action = none) (now : Int) :
    Sound (handler.tryNextAction requests now) := by
  unfold CNetHandler.tryNextAction
  cases pending_eq : handler.pending with
  | nil => exact ⟨counts, .free plain fun _ => pending_eq, .inl idle⟩
  | cons front left =>
      obtain ⟨action, time⟩ := front
      dsimp only
      split
      · refine ⟨⟨?_, counts.nodup, counts.order⟩,
          .expiring handler.stack action time left rfl plain idle pending_eq List.mem_cons_self,
          .inl idle⟩
        intro other
        have places := counts.places other
        simp [current, waiting, complete, push, List.count_cons] at places ⊢
        grind
      · refine ⟨⟨?_, counts.nodup, ?_⟩, .starting handler.stack action rfl plain rfl,
          .inr (.inl rfl)⟩
        · intro other
          have places := counts.places other
          simp [current, waiting, idle, pending_eq, startActionProcess, push, List.count_cons]
            at places ⊢
          omega
        · have order := counts.order
          simpa [startActionProcess, push, pending_eq] using order

/-! ## Events from outside -/

section

variable (counts : Counts handler) (plain : Plain handler.stack)
  (working : handler.Working)
include counts plain working

theorem Sound.outputConnected (sent : handler.outputConnected requests result = some after) :
    Sound after := by
  unfold CNetHandler.outputConnected at sent
  split at sent
  · cases sent
    exact Sound.doErrorFinished counts plain
  · exact Sound.doSend counts plain working sent

theorem Sound.outputNotify {error : Bool}
    (sent : handler.outputNotify requests error result = some after) : Sound after := by
  have connected : Counts { handler with connState := .connected } :=
    { counts with }
  unfold CNetHandler.outputNotify at sent
  split at sent
  · cases sent
    exact Sound.doErrorFinished counts plain
  · split at sent
    · split at sent
      · cases sent
        exact Sound.doErrorFinished counts plain
      · exact Sound.outputConnected connected plain working sent
    · exact Sound.outputConnected counts plain working sent

theorem Sound.inputNotify {result : RecvResult}
    (received : handler.inputNotify requests result = some after) : Sound after := by
  unfold CNetHandler.inputNotify at received
  split at received
  · cases received
    exact Sound.doErrorFinished counts plain
  · split at received
    case isTrue idle =>
        cases received
        apply Sound.close_tryNext counts plain
        cases working with
        | inl none_current => exact none_current
        | inr busy =>
            rw [idle] at busy
            cases busy with
            | inl wrong | inr wrong => cases wrong
    case isFalse =>
        split at received
        · cases received
          exact Sound.doErrorFinished counts plain
        · split at received
          case isTrue none_current =>
              cases received
              exact Sound.close_tryNext counts plain none_current
          case isFalse => exact Sound.doRecv counts plain working received

theorem Sound.timerNotify (idle : handler.action = none → handler.pending = []) :
    Sound handler.timerNotify := by
  unfold CNetHandler.timerNotify
  cases state : handler.procState with
  | idleRecycle => exact ⟨counts, .free plain idle, working⟩
  | idle =>
      refine ⟨{ counts with }, .free plain idle, .inl ?_⟩
      cases working with
      | inl none_current => exact none_current
      | inr busy =>
          rw [state] at busy
          cases busy with
          | inl wrong | inr wrong => cases wrong
  | sending | recving => exact Sound.doErrorFinished counts plain

end

theorem Sound.notify (counts : Counts handler) (plain : Plain handler.stack)
    (idle : handler.action = none → handler.pending = []) (working : handler.Working)
    (notified : handler.notify requests event = some after) : Sound after := by
  cases event with
  | request action now =>
      simp only [CNetHandler.notify] at notified
      split at notified
      case isTrue => cases notified
      case isFalse fresh =>
          cases notified
          exact Sound.handleRequest counts plain idle working fresh now
  | input result => exact Sound.inputNotify counts plain working notified
  | output error result => exact Sound.outputNotify counts plain working notified
  | hangup =>
      cases notified
      exact Sound.doErrorFinished counts plain
  | timer =>
      cases notified
      exact Sound.timerNotify counts plain working idle
  | _ => cases notified

/-! ## Steps of the running call -/

/-- No callback makes a request while `TryNextAction` waits for the callback of an action that has
waited too long. -/
def Event.safe (handler : CNetHandler) : Event → Bool
  | .request _ _ => handler.stack.all fun call =>
      match call with
      | .expired _ => false
      | _ => true
  | _ => true

theorem push_popCall (stack_eq : handler.stack = call :: rest) :
    { handler with stack := rest }.push call = handler := by
  rw [push, ← stack_eq]

theorem plain_tail (plain : Plain (call :: rest)) : Plain rest :=
  fun other member => plain other (List.mem_cons_of_mem call member)

section

variable (counts : Counts handler)
include counts

theorem Sound.runCallback (plain : Plain handler.stack)
    (idle : handler.action = none → handler.pending = []) (working : handler.Working)
    (stack_eq : handler.stack = .callback :: rest)
    (stepped : CNetHandler.run requests { handler with stack := rest } .callback event =
      some after) : Sound after := by
  cases event with
  | request action now =>
      simp only [CNetHandler.run] at stepped
      split at stepped
      case isTrue => cases stepped
      case isFalse fresh =>
          cases stepped
          rw [push_popCall stack_eq]
          exact Sound.handleRequest counts plain idle working fresh now
  | back =>
      cases stepped
      rw [stack_eq] at plain
      exact ⟨counts.pop stack_eq (by simp) (by simp), .free (plain_tail plain) idle, working⟩
  | _ => cases stepped

theorem Sound.runFinish (plain : Plain handler.stack)
    (idle : handler.action = none → handler.pending = []) (working : handler.Working)
    (stack_eq : handler.stack = .finish action :: rest)
    (stepped : CNetHandler.run requests { handler with stack := rest } (.finish action) event =
      some after) : Sound after := by
  cases event with
  | goOn now =>
      cases stepped
      rw [stack_eq] at plain
      refine ⟨⟨?_, counts.nodup, counts.order⟩, .free ?_ idle, working⟩
      · intro other
        have places := counts.places other
        simp [current, waiting, stack_eq, complete, push, List.count_cons] at places ⊢
        grind
      · intro call member
        cases List.mem_cons.1 member with
        | inl new => rw [new, HandlerCall.plain]
        | inr old => exact plain_tail plain call old
  | _ => cases stepped

theorem Sound.runTryNext (stack_eq : handler.stack = .tryNext :: rest)
    (plain : Plain rest) (idle : handler.action = none)
    (stepped : CNetHandler.run requests { handler with stack := rest } .tryNext event =
      some after) : Sound after := by
  cases event with
  | goOn now =>
      cases stepped
      exact Sound.tryNextAction (counts.pop stack_eq (by simp) (by simp)) plain idle now
  | _ => cases stepped

theorem Sound.runExpired {time : Int} {left : List (Nat × Int)}
    (stack_eq : handler.stack = .expired action :: rest)
    (plain : Plain rest) (idle : handler.action = none)
    (pending_eq : handler.pending = (action, time) :: left)
    (stepped : CNetHandler.run requests { handler with stack := rest } (.expired action) event =
      some after) : Sound after := by
  cases event with
  | goOn now =>
      cases stepped
      refine ⟨⟨?_, counts.nodup, ?_⟩, .trying rest rfl plain idle, .inl idle⟩
      · intro other
        have places := counts.places other
        simp [current, waiting, stack_eq, pending_eq, push, List.count_cons] at places ⊢
        omega
      · have order := counts.order
        simp only [push, pending_eq, List.tail_cons, List.map_cons] at order ⊢
        exact ((List.Sublist.refl _).append (List.sublist_cons_self _ _)).trans order
  | _ => cases stepped

theorem Sound.runStart (stack_eq : handler.stack = .start :: rest)
    (plain : Plain rest) (busy : handler.action = some action)
    (working : handler.Working)
    (stepped : CNetHandler.run requests { handler with stack := rest } .start event = some after) :
    Sound after := by
  have popped := counts.pop stack_eq (by simp) (by simp)
  cases event with
  | opened result =>
      simp only [CNetHandler.run] at stepped
      split at stepped
      · cases stepped
        exact Sound.openSocket popped plain busy working result
      · cases stepped
  | sent result =>
      simp only [CNetHandler.run] at stepped
      split at stepped
      · cases stepped
      · exact Sound.doSend popped plain working stepped
  | _ => cases stepped

end

/-! ## Runs -/

/-- One step in which no callback of an action that has waited too long makes a request. -/
def SafeStep (requests : Requests) (before after : CNetHandler) : Prop :=
  ∃ event : Event, event.safe before = true ∧ before.step requests event = some after

theorem Sound.step (sound : Sound handler) (stepped : SafeStep requests handler after) :
    Sound after := by
  obtain ⟨event, safe, moved⟩ := stepped
  obtain ⟨counts, shape, working⟩ := sound
  unfold CNetHandler.step at moved
  cases shape with
  | free plain idle =>
      cases stack_eq : handler.stack with
      | nil =>
          rw [stack_eq] at moved
          exact Sound.notify counts plain idle working moved
      | cons call rest =>
          rw [stack_eq] at moved
          cases call with
          | callback => exact Sound.runCallback counts plain idle working stack_eq moved
          | finish action => exact Sound.runFinish counts plain idle working stack_eq moved
          | tryNext | expired action | start => cases plain _ (stack_eq ▸ List.mem_cons_self)
  | trying rest stack_eq plain idle =>
      rw [stack_eq] at moved
      exact Sound.runTryNext counts stack_eq plain idle moved
  | starting rest action stack_eq plain busy =>
      rw [stack_eq] at moved
      exact Sound.runStart counts stack_eq plain busy working moved
  | expiring rest action time left stack_eq plain idle pending_eq ended =>
      rw [stack_eq] at moved
      cases event with
      | request action now => simp [Event.safe, stack_eq] at safe
      | back =>
          cases moved
          exact ⟨counts.pop stack_eq (by simp) (by simp),
            .expired rest action time left rfl plain idle pending_eq ended, working⟩
      | _ => cases moved
  | expired rest action time left stack_eq plain idle pending_eq =>
      rw [stack_eq] at moved
      exact Sound.runExpired counts stack_eq plain idle pending_eq moved

theorem count_expired_le {front : Nat} {time : Int} {left : List (Nat × Int)}
    (plain : Plain rest)
    (pending_eq : handler.pending = (front, time) :: left)
    (action : Nat) :
    (HandlerCall.expired front :: rest).count (.expired action) ≤ handler.waiting action := by
  simp only [waiting, pending_eq, List.map_cons, List.count_cons, count_plain plain, beq_iff_eq,
    HandlerCall.expired.injEq]
  omega

/-- An action whose callback runs because it has waited too long is still in the list. -/
theorem Shape.expired_le (shape : Shape handler) (action : Nat) :
    handler.stack.count (.expired action) ≤ handler.waiting action := by
  cases shape with
  | free plain idle =>
      rw [count_plain plain]
      exact Nat.zero_le _
  | trying below stack_eq plain | starting below started stack_eq plain =>
      simp [stack_eq, count_plain plain]
  | expiring below front time left stack_eq plain idle pending_eq =>
      rw [stack_eq, List.count_cons_of_ne (by simp)]
      exact count_expired_le plain pending_eq action
  | expired below front time left stack_eq plain idle pending_eq =>
      rw [stack_eq]
      exact count_expired_le plain pending_eq action

theorem Shape.expired_completed (shape : Shape handler)
    (member : .expired action ∈ handler.stack) : action ∈ handler.completed := by
  cases shape with
  | free plain idle => cases plain _ member
  | trying below stack_eq plain | starting below started stack_eq plain =>
      rw [stack_eq] at member
      cases plain _ ((List.mem_cons.1 member).resolve_left nofun)
  | expiring below front time left stack_eq plain idle pending_eq ended =>
      rw [stack_eq] at member
      cases List.mem_cons.1 ((List.mem_cons.1 member).resolve_left nofun) with
      | inl same =>
          cases same
          exact ended
      | inr old => cases plain _ old
  | expired below front time left stack_eq plain idle pending_eq ended =>
      rw [stack_eq] at member
      cases List.mem_cons.1 member with
      | inl same =>
          cases same
          exact ended
      | inr old => cases plain _ old

theorem Sound.exact (sound : Sound handler) : Exact handler := by
  obtain ⟨counts, shape, _⟩ := sound
  have given_le := List.nodup_iff_count_le_one.1 counts.nodup
  constructor
  · rw [List.nodup_iff_count_le_one]
    intro action
    have places := counts.places action
    have le_one := given_le action
    have expired_le := shape.expired_le action
    omega
  · intro action member not_completed
    have places := counts.places action
    have le_one := given_le action
    have positive := List.count_pos_iff.2 member
    have not_expired : .expired action ∉ handler.stack := fun expired =>
      not_completed (shape.expired_completed expired)
    rw [List.count_eq_zero.2 not_completed, List.count_eq_zero.2 not_expired] at places
    omega
  · exact (List.sublist_append_left _ _).trans counts.order

theorem new_sound : Sound new := by
  refine ⟨⟨?_, List.nodup_nil, List.Sublist.refl _⟩, .free nofun fun _ => rfl, .inl rfl⟩
  intro action
  rfl

theorem safeRun_sound (run : Relation.ReflTransGen (SafeStep requests) new handler) :
    Sound handler := by
  induction run with
  | refl => exact new_sound
  | tail _ stepped induction => exact induction.step stepped

/-- In every run in which no callback makes a request while `TryNextAction` waits for the callback
of an action that has waited too long, each action is ended once, and the actions are started in the
order in which they were given.  While no finish routine is on the stack, in particular between the
events, an action that is not ended is the current one or waits exactly once. -/
theorem safeRun_exact (run : Relation.ReflTransGen (SafeStep requests) new handler) :
    Exact handler ∧ ((∀ action, .finish action ∉ handler.stack) →
      ∀ action ∈ handler.given, action ∉ handler.completed →
        (handler.action = some action ∧ handler.waiting action = 0) ∨
          (handler.action ≠ some action ∧ handler.waiting action = 1)) := by
  have all_exact := (safeRun_sound run).exact
  refine ⟨all_exact, ?_⟩
  intro no_finish action member not_completed
  have place := all_exact.place action member not_completed
  rw [List.count_eq_zero.2 (no_finish action), current] at place
  by_cases same : handler.action = some action
  · rw [if_pos same] at place
    exact Or.inl ⟨same, by omega⟩
  · rw [if_neg same] at place
    exact Or.inr ⟨same, by omega⟩

/-- TCP requests of one byte that wait for an answer, for at most ten milliseconds. -/
def tenMilliseconds : Requests where
  sendOnly := fun _ => false
  timeout := fun _ => 10
  length := fun _ => 1
  tcp := true

/-- Action 0 is being connected when action 1 comes.  Then the peer hangs up, and action 1 has
waited too long: its callback makes a request, for which there is no socket. -/
def lateRequest : List Event :=
  [.request 0 0, .opened .progress, .request 1 0, .hangup, .goOn 20, .request 2 20,
    .opened .noSocket, .goOn 20]

theorem lateRequest_isSome :
    (Executions.execute (step tenMilliseconds) new lateRequest).isSome = true := by
  decide

/-- The state after these events. -/
def afterLateRequest : CNetHandler :=
  (Executions.execute (step tenMilliseconds) new lateRequest).get lateRequest_isSome

theorem afterLateRequest_completed : afterLateRequest.completed = [1, 1] := by
  decide

/-- Action 1 is ended twice. -/
theorem stepRun_exact_wrong :
    Relation.ReflTransGen (Step tenMilliseconds) new afterLateRequest ∧
      ¬ Exact afterLateRequest := by
  refine ⟨Executions.execute_run (Option.some_get _).symm, ?_⟩
  intro all_exact
  have once := all_exact.once
  rw [afterLateRequest_completed] at once
  exact absurd once (by decide)

/-- The same up to the callback of action 1, which makes no request; the callback of action 0 makes
one, and it is started. -/
def earlyRequest : List Event :=
  [.request 0 0, .opened .progress, .request 1 0, .hangup, .goOn 20, .back, .goOn 20, .goOn 20,
    .goOn 20, .request 2 20, .opened .progress, .back]

/-- The run of these events, each of which is safe. -/
def earlyRequestRun : Option CNetHandler :=
  Executions.execute (Executions.guarded (fun handler event => Event.safe handler event)
    (step tenMilliseconds)) new earlyRequest

theorem earlyRequestRun_isSome : earlyRequestRun.isSome = true := by
  decide

/-- The state after it. -/
def afterEarlyRequest : CNetHandler :=
  earlyRequestRun.get earlyRequestRun_isSome

theorem afterEarlyRequest_exact :
    afterEarlyRequest.action = some 2 ∧ afterEarlyRequest.completed = [0, 1] ∧
      Exact afterEarlyRequest :=
  ⟨by decide, by decide,
    (safeRun_exact (Executions.execute_guarded_run
      (Option.some_get earlyRequestRun_isSome).symm)).1⟩

end CNetHandler

end Spp.AsyncFrame
