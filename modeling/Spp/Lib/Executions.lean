import Mathlib.Logic.Relation

/-!
# Executions of a step function

A system whose step is a partial function of an event can be run on a list of events.  The state
that this gives is reached by the steps of the system.  A guard on the events gives the runs whose
steps all meet a condition.
-/

namespace Executions

variable {State Event : Type*} {step : State → Event → Option State} {before after : State}

/-- All events, one after the other. -/
def execute (step : State → Event → Option State) (state : State) : List Event → Option State
  | [] => some state
  | event :: rest => (step state event).bind fun next => execute step next rest

/-- A step for the events that a guard lets through. -/
def guarded (guard : State → Event → Bool) (step : State → Event → Option State) (state : State)
    (event : Event) : Option State :=
  if guard state event then step state event else none

theorem execute_run {events : List Event} (executed : execute step before events = some after) :
    Relation.ReflTransGen (fun one other => ∃ event, step one event = some other) before after := by
  induction events generalizing before with
  | nil =>
      cases executed
      exact .refl
  | cons event rest induction =>
      obtain ⟨next, stepped, executed⟩ := Option.bind_eq_some_iff.1 executed
      exact .head ⟨event, stepped⟩ (induction executed)

theorem execute_guarded_run {guard : State → Event → Bool} {events : List Event}
    (executed : execute (guarded guard step) before events = some after) :
    Relation.ReflTransGen
      (fun one other => ∃ event, guard one event = true ∧ step one event = some other)
      before after := by
  apply Relation.ReflTransGen.mono _ before after (execute_run executed)
  rintro one other ⟨event, stepped⟩
  obtain ⟨allowed, stepped⟩ := Option.ite_none_right_eq_some.1 stepped
  exact ⟨event, allowed, stepped⟩

/-! ## Conditions along a run -/

/-- A condition on the events of a run of a total step function, each with the state before it. -/
def Along (step : State → Event → State) (holds : State → Event → Prop) :
    State → List Event → Prop
  | _, [] => True
  | state, event :: events => holds state event ∧ Along step holds (step state event) events

instance instDecidableAlong {step : State → Event → State} {holds : State → Event → Prop}
    [∀ state event, Decidable (holds state event)] :
    (state : State) → (events : List Event) → Decidable (Along step holds state events)
  | _, [] => instDecidableTrue
  | state, event :: events =>
      have : Decidable (Along step holds (step state event) events) :=
        instDecidableAlong (step state event) events
      inferInstanceAs (Decidable (_ ∧ _))

theorem along_of_forall {step : State → Event → State} {holds : State → Event → Prop}
    (all : ∀ state event, holds state event) (state : State) (events : List Event) :
    Along step holds state events := by
  induction events generalizing state with
  | nil => trivial
  | cons event events induction => exact ⟨all state event, induction (step state event)⟩

/-- If under an invariant an event is right exactly if it is safe, and safe events keep the
invariant, then all events of a run are right exactly if all are safe. -/
theorem along_iff {step : State → Event → State} {invariant : State → Prop}
    {possible right safe : State → Event → Prop}
    (right_iff : ∀ state event, invariant state → possible state event →
      (right state event ↔ safe state event))
    (keeps : ∀ state event, invariant state → possible state event → safe state event →
      invariant (step state event))
    {state : State} {events : List Event} (start : invariant state)
    (run : Along step possible state events) :
    Along step right state events ↔ Along step safe state events := by
  induction events generalizing state with
  | nil => exact Iff.rfl
  | cons event events induction =>
      refine (and_congr_left' (right_iff state event start run.1)).trans ?_
      exact and_congr_right fun safe => induction (keeps state event start run.1 safe) run.2

end Executions
