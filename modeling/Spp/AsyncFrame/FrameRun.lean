import Spp.AsyncFrame.FrameCounts
import Spp.Lib.Executions

/-!
# Runs of the async frame

`HandleProcess` does not delete the set whose actions have ended, since its callers may need it: it
deletes the one before.  `StartAction` is no owner of its set, and it looks at it once more after
the start of an action that has ended at once; `TryNextAction` looks once more at an action that it
has ended, if it is called again meanwhile.  In the runs without these two no deleted set is read,
and every accepted message ends exactly once.
-/

namespace Spp.AsyncFrame

namespace CAsyncFrame

variable {config : Config} {frame after : CAsyncFrame} {call : Call} {msg set action : Nat}
  {rest : List Call} {hands duties total : Multiset Duty} {value : Int} {timeout : Bool}

/-- What the calls are responsible for, with what a function has in its hands. -/
def load (frame : CAsyncFrame) (hands : Multiset Duty) : Multiset Duty :=
  (frame.stack.map Call.load).sum + hands

/-- What every safe step keeps; a function has some duties in its hands. -/
structure Kept (config : Config) (frame : CAsyncFrame) (hands : Multiset Duty) : Prop where
  placed : Placed config frame (frame.load hands)
  building : ∀ msg set, .stateEncode msg set ∈ frame.stack →
    (frame.sets set).msg = msg ∧ (frame.sets set).finished = 0
  fresh : frame.stale = false

/-! ## Calls and returns -/

theorem load_push (frame : CAsyncFrame) (call : Call) (hands : Multiset Duty) :
    (frame.push call).load hands = frame.load (call.load + hands) := by
  simp only [load, push, List.map_cons, List.sum_cons]
  rw [add_assoc, add_left_comm]

theorem Placed.push (placed : Placed config frame (frame.load (call.load + hands))) :
    Placed config (frame.push call) ((frame.push call).load hands) := by
  rw [load_push]
  exact ⟨{ placed.messages with }, { placed.actions with }, { placed.owned with }⟩

/-- A call that makes no set takes its duties from the hands. -/
theorem Kept.push (kept : Kept config frame total) (call : Call)
    (total_eq : total = call.load + hands)
    (plain : ∀ msg set, .stateEncode msg set ≠ call) : Kept config (frame.push call) hands where
  placed := Placed.push (total_eq ▸ kept.placed)
  building msg set member :=
    kept.building msg set ((List.mem_cons.1 member).resolve_left (plain msg set))
  fresh := kept.fresh

theorem Kept.pop (kept : Kept config frame 0) (stack_eq : frame.stack = call :: rest) :
    Kept config { frame with stack := rest } call.load where
  placed := by
    have same : frame.load 0 = load { frame with stack := rest } call.load := by
      rw [load, stack_eq, List.map_cons, List.sum_cons, add_zero, add_comm]
      rfl
    have placed := kept.placed
    rw [same] at placed
    exact ⟨{ placed.messages with }, { placed.actions with }, { placed.owned with }⟩
  building msg set member := kept.building msg set (stack_eq ▸ List.mem_cons_of_mem call member)
  fresh := kept.fresh

theorem push_pop (frame : CAsyncFrame) (stack_eq : frame.stack = call :: rest) :
    { frame with stack := rest }.push call = frame := by
  rw [push, ← stack_eq]

theorem load_cons (frame : CAsyncFrame) (duty : Duty) (hands : Multiset Duty) :
    frame.load (duty ::ₘ hands) = duty ::ₘ frame.load hands :=
  Multiset.add_cons ..

theorem replicate_succ_eq (count : Nat) (duty : Duty) :
    Multiset.replicate (count + 1) duty = .replicate count duty + {duty} := by
  rw [Multiset.replicate_succ, ← Multiset.singleton_add, add_comm]

theorem Kept.read (kept : Kept config frame hands) (alive : frame.alive set = true) :
    Kept config (frame.read set) hands where
  placed :=
    ⟨{ kept.placed.messages with }, { kept.placed.actions with }, { kept.placed.owned with }⟩
  building := kept.building
  fresh := by simp [CAsyncFrame.read, alive, kept.fresh]

/-- A set with an unfinished action is under way. -/
theorem Kept.mem_working {count : Nat}
    (kept : Kept config frame (.replicate (count + 1) (.action set))) : set ∈ frame.working :=
  kept.placed.mem_working (Multiset.mem_add.2 (Or.inr (Multiset.mem_replicate.2
    ⟨Nat.succ_ne_zero count, rfl⟩)))

theorem Kept.iterate (kept : Kept config frame total) (member : set ∈ frame.working)
    (left : List Nat) (total_eq : total = .replicate left.length (.action set)) :
    Kept config (frame.iterate set left timeout) 0 := by
  have read := kept.read (kept.placed.owned.alive_of_working member)
  cases left with
  | nil =>
      cases total_eq
      exact read
  | cons action left => exact read.push _ (total_eq.trans (add_zero _).symm) (by simp)

/-! ## The functions of the frame -/

theorem Kept.finish (kept : Kept config frame {.message msg}) :
    Kept config (frame.finish config msg) 0 := by
  have placed := kept.placed
  rw [← Multiset.cons_zero, load_cons] at placed
  have ended := placed.ends msg
  rw [Multiset.cons_swap] at ended
  unfold CAsyncFrame.finish
  cases has_fini : config.hasFini with
  | true =>
      simp only [has_fini, if_true] at ended ⊢
      rw [← load_cons, ← load_cons] at ended
      refine Kept.push ?_ _ (add_zero _).symm (by simp)
      exact ⟨ended, kept.building, kept.fresh⟩
  | false =>
      simp only [has_fini, Bool.false_eq_true, if_false] at ended ⊢
      exact ⟨ended.recycle, kept.building, kept.fresh⟩

/-- A set that a call makes is not under way, and it is in no other hands. -/
theorem Kept.encode_owner (kept : Kept config frame hands)
    (member : .stateEncode msg set ∈ frame.stack) :
    set ∉ frame.working ∧ .owner set ∉ hands ∧ set < frame.made := by
  obtain ⟨before, rest, stack_eq⟩ := List.append_of_mem member
  have once := kept.placed.owned.once set
  have alive := kept.placed.owned.alive set
  simp only [owners, load, stack_eq, List.map_append, List.map_cons, List.sum_append, List.sum_cons,
    Call.load, Multiset.count_add, Multiset.insert_eq_cons, Multiset.count_cons,
    Multiset.count_singleton, reduceCtorEq, if_true, if_false] at once alive
  rw [← List.count_eq_zero, ← Multiset.count_eq_zero]
  exact ⟨by omega, by omega, (alive (by omega)).2⟩

theorem Kept.handleEncode (kept : Kept config frame {.message msg}) (id : Int) :
    Kept config (frame.handleEncode config id msg) 0 := by
  unfold CAsyncFrame.handleEncode
  split
  · have placed := kept.placed.make msg
    rw [← load_cons, ← Multiset.insert_eq_cons, Multiset.pair_comm] at placed
    rw [← add_zero (insert ..)] at placed
    refine ⟨Placed.push placed, fun other set member => ?_, kept.fresh⟩
    simp only [CAsyncFrame.push, setSet, List.mem_cons] at member ⊢
    obtain same | old := member
    · cases same
      rw [Function.update_self]
      exact ⟨rfl, rfl⟩
    · rw [Function.update_of_ne (kept.encode_owner old).2.2.ne]
      exact kept.building other set old
  · exact kept.finish

theorem Kept.process (kept : Kept config frame 0) (fresh : msg ∉ frame.given)
    (few : frame.requestCount < 2147483647) : Kept config (frame.process config msg) 0 := by
  have noted : Kept config { frame with given := msg :: frame.given } 0 := by
    obtain ⟨nodup, known⟩ := kept.placed.messages.given
    exact ⟨⟨{ kept.placed.messages with given := ⟨nodup, List.subset_cons_of_subset msg known⟩ },
      { kept.placed.actions with }, { kept.placed.owned with }⟩, kept.building, kept.fresh⟩
  unfold CAsyncFrame.process
  dsimp only
  split
  case isTrue full =>
      split
      · exact noted.push _ rfl (by simp)
      · exact noted
  case isFalse not_full =>
      have accepted : Kept config { frame with
          given := msg :: frame.given
          accepted := msg :: frame.accepted
          requestCount := frame.requestCount + 1 } {.message msg} := by
        have placed := kept.placed.accept fresh (fun positive => by
          by_contra above
          exact not_full ⟨positive, not_lt.1 above⟩) few
        rw [← load_cons] at placed
        exact ⟨placed, kept.building, kept.fresh⟩
      unfold CAsyncFrame.accept
      dsimp only
      split
      · exact accepted.push _ (add_zero _).symm (by simp)
      · exact accepted.handleEncode 1

/-- A set that no call makes is written. -/
theorem Kept.building_setSet (kept : Kept config frame hands) (value : CActionSet)
    (not_made : ∀ msg, .stateEncode msg set ∉ frame.stack) {other : Nat}
    (member : .stateEncode msg other ∈ frame.stack) :
    ((frame.setSet set value).sets other).msg = msg ∧
      ((frame.setSet set value).sets other).finished = 0 := by
  have ne : other ≠ set := by
    rintro rfl
    exact not_made msg member
  simp only [setSet, Function.update_of_ne ne]
  exact kept.building msg other member

theorem Kept.handleFinished (kept : Kept config frame {.action set}) :
    Kept config (frame.handleFinished set) 0 := by
  have placed := kept.placed
  rw [← Multiset.cons_zero, load_cons] at placed
  have member := placed.mem_working (Multiset.mem_cons_self _ _)
  have not_made : ∀ msg, .stateEncode msg set ∉ frame.stack :=
    fun msg making => (kept.encode_owner making).1 member
  have read := kept.read (placed.owned.alive_of_working member)
  unfold CAsyncFrame.handleFinished
  dsimp only
  split
  case isTrue last =>
      have released := (placed.release last).setIdle
        { frame.sets set with finished := (frame.sets set).finished + 1 }
        placed.owned.working_nodup.not_mem_erase
      rw [← load_cons, ← load_cons] at released
      refine Kept.push ?_ _ (add_zero _).symm (by simp)
      exact ⟨⟨{ released.messages with }, { released.actions with }, { released.owned with }⟩,
        fun msg other => kept.building_setSet _ not_made, read.fresh⟩
  case isFalse more =>
      have counted := placed.countFinished more
      exact ⟨⟨{ counted.messages with }, { counted.actions with }, { counted.owned with }⟩,
        fun msg other => kept.building_setSet _ not_made, read.fresh⟩

theorem Kept.handleProcess (kept : Kept config frame {.message msg, .owner set}) (next : Int) :
    Kept config (frame.handleProcess config msg set next) 0 := by
  have placed := kept.placed
  rw [Multiset.pair_comm, Multiset.insert_eq_cons, load_cons] at placed
  have recycled := placed.recycleSet
  unfold CAsyncFrame.handleProcess
  extract_lets old pending
  have kept_pending : Kept config pending {.message msg} := by
    simp only [pending, old]
    cases need_eq : frame.needDelete with
    | none =>
        rw [need_eq] at recycled
        exact ⟨recycled, kept.building, kept.fresh⟩
    | some last =>
        rw [need_eq] at recycled
        exact ⟨recycled, kept.building, kept.fresh⟩
  split
  · exact kept_pending.finish
  · exact kept_pending.handleEncode next

/-! ## The running call -/

/-- If the start of an action ended its set, it failed: `StartAction` does not look at the set once
more.  No `TryNextAction` finds an action that is ended already, and there are less than 2^31
requests at a time. -/
def Move.safe (frame : CAsyncFrame) : Move → Bool
  | .leave value =>
      match frame.stack with
      | .network (some (set, [])) :: _ => decide (set ∈ frame.working) || decide (value < 0)
      | _ => true
  | .look _ _ => false
  | .process _ => decide (frame.requestCount < 2147483647)
  | _ => true

theorem Kept.back (kept : Kept config frame 0) (stack_eq : frame.stack = call :: rest)
    (returned : CAsyncFrame.back config { frame with stack := rest } call value timeout =
      some after) : Kept config after 0 := by
  have popped := kept.pop stack_eq
  cases call with
  | init msg =>
      cases returned
      split
      · exact Kept.finish popped
      · exact Kept.handleEncode popped value
  | overload msg =>
      cases returned
      exact popped
  | stateEncode msg set =>
      obtain ⟨of_msg, none_finished⟩ := kept.building msg set (stack_eq ▸ List.mem_cons_self)
      have placed := popped.placed
      simp only [CAsyncFrame.back] at returned
      split at returned
      · cases returned
        rw [Call.load, Multiset.pair_comm, Multiset.insert_eq_cons, load_cons] at placed
        exact Kept.finish ⟨placed.delete, popped.building, popped.fresh⟩
      · split at returned
        · cases returned
          exact popped.push _ (add_zero _).symm (by simp)
        case isFalse nonempty =>
          cases returned
          rw [Call.load, ← Multiset.cons_zero, Multiset.insert_eq_cons, load_cons, load_cons,
            ← of_msg] at placed
          have started := placed.start none_finished nonempty
          rw [load, add_left_comm] at started
          exact ⟨Placed.push started, fun other set member =>
            popped.building other set ((List.mem_cons.1 member).resolve_left (by simp)),
              popped.fresh⟩
  | actionEncode set action left =>
      simp only [CAsyncFrame.back] at returned
      split at returned
      · cases returned
        have failed := popped.push (.failed set left false) (replicate_succ_eq ..) (by simp)
        exact failed.push _ (add_zero _).symm (by simp)
      · cases returned
        have placed := popped.placed
        rw [Call.load, Multiset.replicate_succ, load_cons] at placed
        have sent : Kept config { frame with
            stack := rest, network := (set, action) :: frame.network }
            (.replicate left.length (.action set)) :=
          ⟨placed.toNetwork action, popped.building, popped.fresh⟩
        exact sent.push _ (add_zero _).symm (by simp)
  | actionEnd set =>
      cases returned
      exact Kept.handleFinished popped
  | stateProcess msg set =>
      cases returned
      exact Kept.handleProcess popped value
  | fini msg =>
      cases returned
      have placed := popped.placed
      rw [Call.load, ← Multiset.cons_zero, Multiset.insert_eq_cons, load_cons, load_cons] at placed
      exact ⟨placed.recycle, popped.building, popped.fresh⟩
  | loop set left timeout | network start | failed set left timeout | expiring set action =>
      cases returned

theorem Kept.addAction (kept : Kept config frame 0)
    (stack_eq : frame.stack = .stateEncode msg set :: rest) (actions : List Nat) :
    Kept config ((setSet { frame with stack := rest } set
      { frame.sets set with actions := actions }).push (.stateEncode msg set)) 0 := by
  have popped := kept.pop stack_eq
  have idle := (kept.encode_owner (stack_eq ▸ List.mem_cons_self)).1
  have placed := popped.placed.setIdle { frame.sets set with actions := actions } idle
  rw [← add_zero (Call.load _)] at placed
  refine ⟨Placed.push placed, fun other one member => ?_, popped.fresh⟩
  obtain same | old := List.mem_cons.1 member
  · cases same
    simpa [CAsyncFrame.push, setSet] using kept.building msg set (stack_eq ▸ List.mem_cons_self)
  · exact popped.building_setSet _ (fun msg making => (popped.encode_owner making).2.1 (by
      simp [Call.load])) old

/-- A handler takes one of its actions. -/
theorem Kept.take {start : Option (Nat × List Nat)} (kept : Kept config frame 0)
    (stack_eq : frame.stack = .network start :: rest) (member : (set, action) ∈ frame.network) :
    Kept config ({ frame with
      stack := rest
      network := frame.network.erase (set, action) }.push (.network start)) {.action set} := by
  have same : { frame with stack := rest, network := frame.network.erase (set, action) }.push
      (.network start) = { frame with network := frame.network.erase (set, action) } :=
    push_pop { frame with network := frame.network.erase (set, action) } stack_eq
  have placed := kept.placed.fromNetwork member
  rw [← load_cons] at placed
  rw [same]
  exact ⟨placed, kept.building, kept.fresh⟩

theorem Kept.run {move : Move} (kept : Kept config frame 0) (stack_eq : frame.stack = call :: rest)
    (safe : move.safe frame = true)
    (stepped : CAsyncFrame.run config { frame with stack := rest } call move = some after) :
    Kept config after 0 := by
  have popped := kept.pop stack_eq
  cases move with
  | process msg =>
      simp only [CAsyncFrame.run] at stepped
      split at stepped
      case isTrue allowed =>
          cases stepped
          rw [push_pop frame stack_eq]
          exact kept.process allowed.2 (of_decide_eq_true safe)
      case isFalse => cases stepped
  | addAction action =>
      cases call with
      | stateEncode msg set =>
          simp only [CAsyncFrame.run] at stepped
          split at stepped
          · cases stepped
            rw [push_pop frame stack_eq]
            exact kept
          · cases stepped
            exact kept.addAction stack_eq ((frame.sets set).actions ++ [action])
      | _ => cases stepped
  | back value timeout => exact kept.back stack_eq stepped
  | begin route =>
      cases call with
      | loop set left timeout =>
          cases left with
          | nil => cases stepped
          | cons action left =>
              have read := popped.read
                (popped.placed.owned.alive_of_working (Kept.mem_working popped))
              simp only [CAsyncFrame.run] at stepped
              split at stepped
              · cases stepped
                have failed := read.push (.failed set left timeout) (replicate_succ_eq ..)
                  (by simp)
                exact failed.push _ (add_zero _).symm (by simp)
              · cases stepped
                exact read.push _ (add_zero _).symm (by simp)
      | _ => cases stepped
  | complete set action callback =>
      cases call with
      | network start =>
          simp only [CAsyncFrame.run] at stepped
          split at stepped
          case isTrue member =>
              have taken := kept.take stack_eq member
              cases stepped
              split
              · exact taken.push _ (add_zero _).symm (by simp)
              · exact taken.handleFinished
          case isFalse => cases stepped
      | _ => cases stepped
  | expire set action =>
      cases call with
      | network start =>
          simp only [CAsyncFrame.run] at stepped
          split at stepped
          case isTrue member =>
              have taken := kept.take stack_eq member
              have waiting := taken.push (.expiring set action) (zero_add _).symm (by simp)
              cases stepped
              exact waiting.push _ (add_zero _).symm (by simp)
          case isFalse => cases stepped
      | _ => cases stepped
  | look set action => cases safe
  | leave value =>
      cases call with
      | network start =>
          cases start with
          | none =>
              cases stepped
              exact popped
          | some start =>
              obtain ⟨set, left⟩ := start
              simp only [CAsyncFrame.run] at stepped
              split at stepped
              case isTrue last =>
                  cases stepped
                  rw [last.2] at popped
                  exact popped
              case isFalse not_failed =>
                  cases stepped
                  refine Kept.iterate popped ?_ left rfl
                  cases left with
                  | nil =>
                      simp only [Move.safe, stack_eq, Bool.or_eq_true, decide_eq_true_eq] at safe
                      exact safe.resolve_right fun negative => not_failed ⟨negative, rfl⟩
                  | cons action left =>
                      exact Kept.mem_working popped
      | _ => cases stepped
  | goOn =>
      cases call with
      | failed set left timeout =>
          cases left with
          | nil =>
              cases stepped
              exact popped
          | cons action left =>
              cases stepped
              exact Kept.iterate popped (Kept.mem_working popped) (action :: left) rfl
      | expiring set action =>
          cases stepped
          exact popped
      | _ => cases stepped
  | event => cases stepped

/-- One step that is safe. -/
def SafeStep (config : Config) (before after : CAsyncFrame) : Prop :=
  ∃ move : Move, move.safe before = true ∧ before.step config move = some after

theorem Kept.step (kept : Kept config frame 0) (stepped : SafeStep config frame after) :
    Kept config after 0 := by
  obtain ⟨move, safe, moved⟩ := stepped
  unfold CAsyncFrame.step at moved
  rw [if_neg (kept.fresh ▸ Bool.false_ne_true)] at moved
  split at moved
  case h_1 call rest stack_eq => exact kept.run stack_eq safe moved
  case h_2 =>
      cases move with
      | process msg =>
          dsimp only at moved
          split at moved
          case isTrue fresh =>
              cases moved
              exact kept.process fresh (of_decide_eq_true safe)
          case isFalse => cases moved
      | event =>
          cases moved
          exact kept.push _ rfl (by simp)
      | _ => cases moved

theorem new_kept (config : Config) : Kept config new 0 := by
  refine ⟨⟨?_, ?_, ?_⟩, by simp [new], rfl⟩ <;> constructor <;>
    simp +contextual [new, load, underWay, unfinished, owners, le_of_lt]

theorem safeRun_kept (run : Relation.ReflTransGen (SafeStep config) new frame) :
    Kept config frame 0 := by
  induction run with
  | refl => exact new_kept config
  | tail _ stepped induction => exact induction.step stepped

/-! ## Requests -/

/-- The message whose handling ends when a user's function returns this value. -/
def endOf (config : Config) : Call → Int → Option Nat
  | .init msg, value => if value ≤ 0 ∨ ¬ config.mapState value then some msg else none
  | .stateEncode msg _, value => if value ≠ 0 then some msg else none
  | .stateProcess msg _, value => if value ≤ 0 ∨ ¬ config.mapState value then some msg else none
  | _, _ => none

/-- Every request ends exactly once. -/
structure EndsOnce (config : Config) (frame : CAsyncFrame) : Prop where
  /-- No deleted set was read. -/
  defined : frame.stale = false
  once : ∀ msg, frame.recycled.count msg ≤ 1 ∧ frame.finis.count msg ≤ 1
  /-- A message that has come to its end had its `Fini` callback, if there is one, and it is
  recycled, or the callback still runs. -/
  done : ∀ msg ∈ frame.ended, frame.finis.count msg = (if config.hasFini then 1 else 0) ∧
    (frame.recycled.count msg = 1 ∨ .fini msg ∈ frame.stack)
  recycled : ∀ msg ∈ frame.recycled, msg ∈ frame.ended ∧ msg ∈ frame.accepted
  /-- A message that has not come to its end is with a call, or it waits for an action. -/
  waits : ∀ msg ∈ frame.accepted, msg ∉ frame.ended →
    (∃ call ∈ frame.stack, .message msg ∈ call.load) ∨ ∃ set ∈ frame.working,
      (frame.sets set).msg = msg ∧
        0 < frame.unfinished (fun set => (frame.load 0).count (.action set)) set
  /-- A final next state and an encode failure end a message. -/
  ends : ∀ call rest value timeout msg after, frame.stack = call :: rest →
    endOf config call value = some msg →
      frame.step config (.back value timeout) = some after → msg ∈ after.ended
  requests : frame.requestCount =
    ((frame.accepted.filter fun msg => msg ∉ frame.recycled).length : Int)
  limit : config.overloadLimit > 0 → frame.requestCount ≤ config.overloadLimit

theorem finish_ended (config : Config) (frame : CAsyncFrame) (msg : Nat) :
    msg ∈ (frame.finish config msg).ended := by
  unfold finish
  cases config.hasFini with
  | true | false => exact List.mem_cons_self

theorem handleEncode_ended (frame : CAsyncFrame) (msg : Nat) {id : Int}
    (unknown : ¬ config.mapState id) : msg ∈ (frame.handleEncode config id msg).ended := by
  unfold handleEncode
  rw [if_neg unknown]
  exact finish_ended config frame msg

theorem back_ended (final : endOf config call value = some msg)
    (returned : frame.back config call value timeout = some after) : msg ∈ after.ended := by
  cases call with
  | init other =>
      obtain ⟨condition, same⟩ := Option.ite_none_right_eq_some.1 final
      cases same
      cases returned
      split
      case isTrue => exact finish_ended config frame msg
      case isFalse above => exact handleEncode_ended frame msg (condition.resolve_left above)
  | stateEncode other set =>
      obtain ⟨failed, same⟩ := Option.ite_none_right_eq_some.1 final
      cases same
      simp only [back, if_pos failed] at returned
      cases returned
      exact finish_ended config _ msg
  | stateProcess other set =>
      obtain ⟨condition, same⟩ := Option.ite_none_right_eq_some.1 final
      cases same
      cases returned
      unfold handleProcess
      dsimp only
      split
      case isTrue => exact finish_ended config _ msg
      case isFalse above => exact handleEncode_ended _ msg (condition.resolve_left above)
  | _ => cases final

theorem exists_of_mem_load {duty : Duty} (member : duty ∈ frame.load 0) :
    ∃ call ∈ frame.stack, duty ∈ call.load := by
  rw [load, add_zero] at member
  generalize frame.stack = stack at member ⊢
  induction stack with
  | nil => simp at member
  | cons call rest induction =>
      rw [List.map_cons, List.sum_cons, Multiset.mem_add] at member
      obtain here | later := member
      · exact ⟨call, List.mem_cons_self, here⟩
      · obtain ⟨other, old, held⟩ := induction later
        exact ⟨other, List.mem_cons_of_mem call old, held⟩

/-- Only the `Fini` callback of a message stands for it. -/
theorem Call.eq_fini (member : .fini msg ∈ call.load) : call = .fini msg := by
  cases call with
  | network start =>
      cases start with
      | none => simp [Call.load] at member
      | some start => simp [Call.load, Multiset.mem_replicate] at member
  | fini other =>
      simp only [Call.load, Multiset.insert_eq_cons, Multiset.mem_cons, reduceCtorEq,
        Multiset.mem_singleton, Duty.fini.injEq, false_or] at member
      rw [member]
  | _ => simp [Call.load, Multiset.mem_replicate] at member

theorem fini_le_message (frame : CAsyncFrame) (msg : Nat) :
    (frame.load 0).count (.fini msg) ≤ (frame.load 0).count (.message msg) := by
  rw [load, add_zero]
  induction frame.stack with
  | nil => exact le_rfl
  | cons call rest induction =>
      rw [List.map_cons, List.sum_cons, Multiset.count_add, Multiset.count_add]
      refine Nat.add_le_add ?_ induction
      by_cases member : .fini msg ∈ call.load
      · rw [Call.eq_fini member]
        simp [Call.load]
      · rw [Multiset.count_eq_zero.2 member]
        exact Nat.zero_le _

section

variable {held running : Nat → Nat} (messages : Messages config frame held running)
include messages

theorem Messages.recycled_le (msg : Nat) :
    frame.recycled.count msg + held msg ≤ frame.accepted.count msg ∧ frame.accepted.count msg ≤
      1 := by
  have places := messages.places msg
  exact ⟨by omega, List.nodup_iff_count_le_one.1 messages.given.1 msg⟩

theorem Messages.requestCount_eq : frame.requestCount =
    ((frame.accepted.filter fun msg => msg ∉ frame.recycled).length : Int) := by
  have recycled_nodup : frame.recycled.Nodup := List.nodup_iff_count_le_one.2 fun msg => by
    have le := messages.recycled_le msg
    omega
  have same : (frame.accepted.filter fun msg => msg ∈ frame.recycled).Perm frame.recycled := by
    rw [List.perm_ext_iff_of_nodup (messages.given.1.filter _) recycled_nodup]
    intro msg
    simp only [List.mem_filter, decide_eq_true_eq, and_iff_right_iff_imp]
    intro member
    have positive := List.count_pos_iff.2 member
    have le := messages.recycled_le msg
    exact List.count_pos_iff.1 (by omega)
  have split := frame.accepted.length_eq_length_filter_add fun msg => decide (msg ∈ frame.recycled)
  have requests := messages.requests
  have length_eq := same.length_eq
  simp only [decide_not] at *
  omega

end

/-- In every run whose steps are safe, every request ends exactly once. -/
theorem safeRun_endsOnce (run : Relation.ReflTransGen (SafeStep config) new frame) :
    EndsOnce config frame := by
  obtain ⟨⟨messages, actions, -⟩, -, fresh⟩ := safeRun_kept run
  have le_one : ∀ msg, frame.ended.count msg ≤ 1 := by
    intro msg
    have le := messages.recycled_le msg
    have fini := frame.fini_le_message msg
    rw [messages.ended]
    omega
  refine ⟨fresh, fun msg => ?_, fun msg member => ?_, fun msg member => ?_,
    fun msg accepted not_ended => ?_, ?_, messages.requestCount_eq, messages.limit⟩
  · have le := le_one msg
    have ended := messages.ended msg
    rw [messages.finis msg]
    exact ⟨by omega, by split <;> omega⟩
  · have positive := List.count_pos_iff.2 member
    have exactly : frame.ended.count msg = 1 := le_antisymm (le_one msg) positive
    have ended := messages.ended msg
    rw [messages.finis msg, exactly]
    refine ⟨rfl, ?_⟩
    by_cases running : (frame.load 0).count (.fini msg) = 0
    · exact Or.inl (by omega)
    · obtain ⟨call, on_stack, held⟩ := exists_of_mem_load
        (Multiset.count_pos.1 (Nat.pos_of_ne_zero running))
      exact Or.inr (Call.eq_fini held ▸ on_stack)
  · have positive := List.count_pos_iff.2 member
    have ended := messages.ended msg
    have le := messages.recycled_le msg
    exact ⟨List.count_pos_iff.1 (by omega), List.count_pos_iff.1 (by omega)⟩
  · have positive := List.count_pos_iff.2 accepted
    have places := messages.places msg
    have ended := messages.ended msg
    rw [List.count_eq_zero.2 not_ended] at ended
    by_cases held : .message msg ∈ frame.load 0
    · exact Or.inl (exists_of_mem_load held)
    · rw [Multiset.count_eq_zero.2 held] at places
      have under_pos : 0 < frame.underWay msg := by omega
      obtain ⟨set, member, of_msg⟩ := List.countP_pos_iff.1 under_pos
      exact Or.inr ⟨set, member, of_decide_eq_true of_msg, (actions.working set member).1⟩
  · intro call rest value timeout msg after stack_eq final stepped
    unfold step at stepped
    rw [if_neg (fresh ▸ Bool.false_ne_true), stack_eq] at stepped
    exact back_ended final stepped

/-- One state, all callbacks except for the overload, and one request at a time. -/
def oneState : Config where
  hasInit := true
  hasFini := true
  hasOverload := false
  overloadLimit := 1
  mapState := fun id => id = 1

/-- A message with an action that cannot be started, one that the network ends later, and one that
times out before it is sent; another message is refused. -/
def oneMessage : List Move :=
  [.process 7, .process 8, .back 1 false, .addAction 0, .addAction 1, .addAction 2, .back 0 false,
    .begin .fails, .back 0 false, .goOn, .begin .start, .back 0 false, .leave 0, .begin .start,
    .back 0 false, .leave 0, .event, .expire 0 2, .back 0 false, .goOn, .complete 0 1 true,
    .back 0 false, .back 0 false, .back 0 false]

theorem oneMessage_isSome : (Executions.execute (Executions.guarded
    (fun frame move => Move.safe frame move) (step oneState)) new oneMessage).isSome = true := by
  decide

/-- The state after the message. -/
def afterOneMessage : CAsyncFrame :=
  (Executions.execute (Executions.guarded (fun frame move => Move.safe frame move)
    (step oneState)) new oneMessage).get oneMessage_isSome

theorem afterOneMessage_endsOnce :
    afterOneMessage.recycled = [7] ∧ EndsOnce oneState afterOneMessage :=
  ⟨by decide, safeRun_endsOnce (Executions.execute_guarded_run (Option.some_get _).symm)⟩

/-! ## Sets -/

/-- Two states and no callbacks. -/
def twoStates : Config where
  hasInit := false
  hasFini := false
  hasOverload := false
  overloadLimit := 0
  mapState := fun id => id = 1 ∨ id = 2

/-- The first state has one action, which ends in its start; the second state has none and is the
last one.  Then the start of the action returns. -/
def twoStateMoves (returned : Int) : List Move :=
  [.process 0, .addAction 0, .back 0 false, .begin .start, .back 0 false, .complete 0 0 false,
    .back 2 false, .back 0 false, .back 0 false, .leave returned]

theorem sendOnly_isSome :
    (Executions.execute (step twoStates) new (twoStateMoves 0)).isSome = true := by
  decide

/-- The state after the start of a send-only action returned 0. -/
def afterSendOnly : CAsyncFrame :=
  (Executions.execute (step twoStates) new (twoStateMoves 0)).get sendOnly_isSome

theorem afterSendOnly_stale : afterSendOnly.stale = true := by
  decide

theorem afterSendOnly_run : Relation.ReflTransGen (Step twoStates) new afterSendOnly :=
  Executions.execute_run (Option.some_get _).symm

/-- The loop of `StartAction` goes on over the actions of the deleted set. -/
theorem stepRun_endsOnce_wrong :
    Relation.ReflTransGen (Step twoStates) new afterSendOnly ∧ ¬ EndsOnce twoStates afterSendOnly :=
  ⟨afterSendOnly_run, fun once => Bool.noConfusion (afterSendOnly_stale.symm.trans once.defined)⟩

end CAsyncFrame

end Spp.AsyncFrame
