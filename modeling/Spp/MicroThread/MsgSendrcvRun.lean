import Mathlib.Logic.Relation
import Spp.MicroThread.MsgSendrcvSteps

/-!
# Calls of `mt_msg_sendrcv`

A call is a run of its steps.  When it returns 0, each action has had the right callback exactly if
the call is `Prompt`.
-/

namespace Spp.MsgSendrcv

/-- The states of a call. -/
def Reaches (env : Env) (list : List (IMtAction × ActionIO)) (call : Call) : Prop :=
  Relation.ReflTransGen (fun before after => before.step env = some after) (Call.start list) call

variable {ret : Int}

section Reaches

variable {env : Env} {list : List (IMtAction × ActionIO)} {call after : Call}
  {reqs out : List Request}

theorem Reaches.tail (reach : Reaches env list call) (steps : call.step env = some after) :
    Reaches env list after :=
  Relation.ReflTransGen.tail reach steps

/-- A call that comes to two points comes from one of them to the other. -/
theorem Reaches.total (reach : Reaches env list call) (later : Reaches env list after) :
    Relation.ReflTransGen (fun before after => before.step env = some after) call after ∨
      Relation.ReflTransGen (fun before after => before.step env = some after) after call := by
  refine Relation.ReflTransGen.total_of_right_unique ?_ reach later
  intro before first second first_step second_step
  exact Option.some.inj (first_step.symm.trans second_step)

theorem eq_of_returned
    (later : Relation.ReflTransGen (fun before after => before.step env = some after)
      (.returned ret out) call) : call = .returned ret out := by
  cases later.cases_head with
  | inl same => exact same.symm
  | inr step =>
      obtain ⟨next, steps, -⟩ := step
      cases steps

theorem Reaches.returns (returns : Reaches env list (.returned ret out))
    (reach : Reaches env list call) :
    Relation.ReflTransGen (fun before after => before.step env = some after) call
      (.returned ret out) := by
  rcases reach.total returns with later | later
  · exact later
  · rw [eq_of_returned later]

theorem Reaches.out_eq (returns : Reaches env list (.returned ret out))
    (reach : Reaches env list (.notifying reqs)) :
    out = (reqs.map Request.notify).map Request.reset := by
  cases (returns.returns reach).cases_head with
  | inl same => cases same
  | inr step =>
      obtain ⟨next, steps, later⟩ := step
      obtain rfl := Option.some.inj steps
      have same := eq_of_returned later
      cases same
      rfl

end Reaches

/-! ## Callbacks -/

namespace Request

/-- The callbacks that were called. -/
def callbacks (req : Request) : List ActionEvent :=
  req.trace.filter fun event =>
    match event with
    | .process => true
    | .error _ => true
    | _ => false

/-- The action has had one callback, and the right one. -/
def Answered (req : Request) : Prop :=
  req.callbacks = [.process] ∧ req.Received ∨
    ∃ code, code ≠ .errNone ∧ req.callbacks = [.error code] ∧ ¬ req.Received

/-- If the action was connected, its request was sent or at least tried to be sent. -/
def Served (req : Request) : Prop := .opened ∈ req.trace → req.Tried

/-- The flag and the error code of the action are right. -/
def Resolved (req : Request) : Prop :=
  (req.action.flag = .flagFin ↔ req.Received) ∧ (req.action.flag ≠ .flagFin → ¬ req.Live) ∧
    req.Served

end Request

section Callbacks

variable {req : Request}

theorem callbacks_of_early (early : ∀ event ∈ req.trace, event.Early) : req.callbacks = [] := by
  rw [Request.callbacks, List.filter_eq_nil_iff]
  intro event member
  have is_early := early event member
  cases event <;> simp_all [ActionEvent.Early]

theorem notify_reset_trace (ready : req.Ready) :
    req.notify.reset.action.conn = none ∧
    req.notify.reset.trace = req.trace ++
      [if req.action.flag ≠ .flagFin then .error req.action.errno else .process,
        .freed (req.action.connObjType = .objTcpKeep ∧ req.Live ∧ req.io.cached)] := by
  obtain ⟨conn, buff, found, has_buff, type_eq, -⟩ := ready
  have notified : req.notify =
      req.record (if req.action.flag ≠ .flagFin then .error req.action.errno else .process) := by
    unfold Request.notify Request.doError Request.doProcess
    split_ifs
    · rfl
    · simp [found, has_buff]
  have still : req.notify.action.conn = some conn := by
    rw [notified]
    exact found
  unfold Request.reset
  simp only [still, type_eq]
  rw [notified]
  exact ⟨rfl, List.append_assoc ..⟩

theorem notify_reset_received (ready : req.Ready) : req.notify.reset.Received ↔ req.Received := by
  simp only [Request.Received, (notify_reset_trace ready).2]
  constructor
  · rintro ⟨ret, positive, member⟩
    refine ⟨ret, positive, ?_⟩
    split_ifs at member <;> simpa using member
  · rintro ⟨ret, positive, member⟩
    exact ⟨ret, positive, List.mem_append_left _ member⟩

theorem answered_iff (ready : req.Ready) (early : ∀ event ∈ req.trace, event.Early) :
    req.notify.reset.Answered ∧ req.notify.reset.Served ↔ req.Resolved := by
  have trace_eq := (notify_reset_trace ready).2
  have tried_iff : req.notify.reset.Tried ↔ req.Tried := by
    simp only [Request.Tried, trace_eq]
    split_ifs <;> simp
  have served_iff : req.notify.reset.Served ↔ req.Served := by
    simp only [Request.Served, tried_iff, trace_eq]
    split_ifs <;> simp
  have callbacks_eq : req.notify.reset.callbacks =
      [if req.action.flag ≠ .flagFin then .error req.action.errno else .process] := by
    have none_yet := callbacks_of_early early
    rw [Request.callbacks] at none_yet ⊢
    rw [trace_eq, List.filter_append, none_yet]
    split_ifs <;> rfl
  rw [served_iff, Request.Answered, callbacks_eq, notify_reset_received ready, Request.Resolved]
  by_cases fin : req.action.flag = .flagFin
  · simp [fin]
  · simp only [fin, ne_eq, not_false_eq_true, if_true, List.cons.injEq, reduceCtorEq, and_true,
      false_and, false_or, ActionEvent.error.injEq, true_implies, false_iff, Request.Live]
    constructor
    · rintro ⟨⟨code, is_error, rfl, not_received⟩, served⟩
      exact ⟨not_received, is_error, served⟩
    · rintro ⟨not_received, is_error, served⟩
      exact ⟨⟨_, is_error, rfl, not_received⟩, served⟩

end Callbacks

/-! ## Prompt calls -/

/-- The call does not give up while an action is on its way.  Before the sockets are created, the
actions with an error do not have the flag `MULTI_FLAG_FIN`, and either all sockets can be created
or there is at most one action without an error and no flag is `MULTI_FLAG_FIN`; when the time is
over in `mt_multi_open`, no action was open before the last round; when it is over in
`mt_multi_sendto`, a request was sent before the last round or none is sent in it. -/
def Call.Prompt (env : Env) : Call → Prop
  | .newsock reqs => (∀ req ∈ reqs, ¬ req.Live → req.action.flag ≠ .flagFin) ∧
      ((∀ req ∈ reqs, req.Live → 0 ≤ req.io.socket) ∨
        (reqs.filter fun req => req.Live).length ≤ 1 ∧
          ∀ req ∈ reqs, req.action.flag ≠ .flagFin)
  | .opening _ tick endMs _ reqs => endMs < env.clock tick → ¬ ∃ req ∈ reqs, mtMultiOpen.Done req
  | .sending _ tick endMs _ reqs => endMs < env.clock tick →
      (∃ req ∈ reqs, mtMultiSendto.Done req) ∨ ∀ req ∈ reqs, req.Live → ¬ req.Completes tick
  | _ => True

section Prompt

variable {clean : Prop} {env : Env} {list : List (IMtAction × ActionIO)} {call after : Call}
  {reqs left out : List Request} {req : Request}

theorem Request.Inited.not_received (inited : req.Inited) : ¬ req.Received := by
  rintro ⟨ret, -, member⟩
  rw [inited.trace] at member
  cases member

theorem Request.Inited.served (inited : req.Inited) : req.Served := by
  intro opened
  rw [inited.trace] at opened
  cases opened

/-- An action that has not been tried is resolved exactly if it has an error and not the flag
`MULTI_FLAG_FIN`. -/
theorem Request.Inited.resolved_iff (inited : req.Inited) :
    req.Resolved ↔ req.action.flag ≠ .flagFin ∧ ¬ req.Live := by
  have not_received := inited.not_received
  constructor
  · rintro ⟨fin_iff, dead, -⟩
    have not_fin : req.action.flag ≠ .flagFin := fun fin => not_received (fin_iff.1 fin)
    exact ⟨not_fin, dead not_fin⟩
  · rintro ⟨not_fin, dead⟩
    exact ⟨iff_of_false not_fin not_received, fun _ => dead, inited.served⟩

theorem not_resolved_of_live (live : req.Live) (not_fin : req.action.flag ≠ .flagFin) :
    ¬ req.Resolved :=
  fun resolved => resolved.2.1 not_fin live

theorem dead_of_length_le {before rest : List Request}
    (at_most : ((before ++ req :: rest).filter fun req => req.Live).length ≤ 1) (live : req.Live) :
    ∀ other ∈ before ++ rest, ¬ other.Live := by
  intro other member other_live
  rw [List.filter_append, List.filter_cons_of_pos (by simpa using live), List.length_append,
    List.length_cons] at at_most
  have positive : ∀ others : List Request, other ∈ others →
      0 < (others.filter fun req => req.Live).length := fun others is_in =>
    List.length_pos_of_mem (List.mem_filter.2 ⟨is_in, by simpa using other_live⟩)
  rcases List.mem_append.1 member with is_in | is_in
  · have := positive before is_in
    omega
  · have := positive rest is_in
    omega

/-- `mt_multi_newsock` gives up: the actions are resolved exactly if the call is prompt. -/
theorem NewsockStep.resolved_iff (step : NewsockStep reqs (.notifying left))
    (inited : ∀ req ∈ reqs, req.Inited) :
    (∀ req ∈ left, req.Resolved) ↔ (Call.newsock reqs).Prompt env := by
  cases step with
  | empty dead =>
      constructor
      · intro resolved
        have flags : ∀ req ∈ reqs, req.action.flag ≠ .flagFin := fun req member =>
          ((inited req member).resolved_iff.1 (resolved req member)).1
        exact ⟨fun req member _ => flags req member,
          Or.inl fun req member live => absurd live (dead req member)⟩
      · rintro ⟨flags, -⟩ req member
        exact (inited req member).resolved_iff.2 ⟨flags req member (dead req member),
          dead req member⟩
  | @failed before rest req reqs_eq live fails =>
      subst reqs_eq
      have req_inited := inited req (by simp)
      constructor
      · intro resolved
        have others : ∀ other ∈ before ++ rest, ¬ other.Live ∧ other.action.flag ≠ .flagFin := by
          intro other member
          rcases List.mem_append.1 member with is_in | is_in
          · have other_resolved := resolved (newsockOne other)
              (List.mem_append_left _ (List.mem_map_of_mem is_in))
            by_cases other_live : other.Live
            · exact absurd other_resolved
                (not_resolved_of_live (newsockOne_live other_live) (newsockOne_flag other_live))
            · rw [newsockOne_of_not_live other_live] at other_resolved
              exact ((inited other (by simp [is_in])).resolved_iff.1 other_resolved).symm
          · have other_resolved := resolved other (by simp [is_in])
            exact ((inited other (by simp [is_in])).resolved_iff.1 other_resolved).symm
        have req_flag : req.action.flag ≠ .flagFin :=
          ((req_inited.setErrno .errSocketFail).resolved_iff.1 (resolved _ (by simp))).1
        have flags : ∀ other ∈ before ++ req :: rest, other.action.flag ≠ .flagFin := by grind
        have none_live : (before ++ rest).filter (fun req => req.Live) = [] :=
          List.filter_eq_nil_iff.2 fun other member => by simpa using (others other member).1
        rw [List.filter_append, List.append_eq_nil_iff] at none_live
        refine ⟨fun other member _ => flags other member, Or.inr ⟨?_, flags⟩⟩
        rw [List.filter_append, List.filter_cons_of_pos (by simpa using live), none_live.1,
          none_live.2]
        exact le_refl 1
      · rintro ⟨-, sockets | ⟨at_most, flags⟩⟩
        · exact absurd (sockets req (by simp) live) (not_le.2 fails)
        · have dead := dead_of_length_le at_most live
          intro other member
          rcases List.mem_append.1 member with is_in | is_in
          · obtain ⟨origin, origin_mem, rfl⟩ := List.mem_map.1 is_in
            have origin_dead := dead origin (List.mem_append_left _ origin_mem)
            rw [newsockOne_of_not_live origin_dead]
            exact (inited origin (by simp [origin_mem])).resolved_iff.2
              ⟨flags origin (by simp [origin_mem]), origin_dead⟩
          · rcases List.mem_cons.1 is_in with rfl | is_in
            · exact (req_inited.setErrno _).resolved_iff.2
                ⟨flags req (by simp), not_live_setErrno (by decide)⟩
            · exact (inited other (by simp [is_in])).resolved_iff.2
                ⟨flags other (by simp [is_in]), dead other (List.mem_append_right _ is_in)⟩

theorem Known.start (clean : Prop) (list : List (IMtAction × ActionIO)) :
    (Call.start list).Known clean := by
  refine ⟨fun req member => absurd member List.not_mem_nil, fun req member => ?_⟩
  obtain ⟨entry, -, rfl⟩ := List.mem_map.1 member
  rfl

theorem Reaches.known (reach : Reaches env list call) :
    call.Known False ∧ call.reqs.map Request.sort = list.map fun entry =>
      (entry.2, entry.1.connObjType) := by
  induction reach with
  | refl =>
      refine ⟨Known.start False list, ?_⟩
      simp only [Call.start, Call.reqs, List.nil_append, List.map_map]
      rfl
  | tail _ steps induction =>
      obtain ⟨known, sorts⟩ := induction
      obtain ⟨known_after, sorts_after⟩ := known.step (fun _ _ impossible => impossible.elim) steps
      exact ⟨known_after, sorts_after.trans sorts⟩

/-- The sockets have been created, and no callback has been called. -/
def Underway : Call → Prop
  | .opening _ _ _ _ _ => True
  | .sending _ _ _ _ _ => True
  | .receiving _ _ _ _ => True
  | .notifying _ => True
  | _ => False

theorem step_keeps_dead (known : call.Known clean) (underway : Underway call)
    (steps : call.step env = some after) (member : req ∈ call.reqs) (dead : ¬ req.Live) :
    Underway after ∧ req ∈ after.reqs ∨ ∃ ret out, after = .returned ret out := by
  cases call with
  | opening startMs tick endMs hasOpen reqs =>
      obtain ⟨left, next, steps_to, settles, open_step⟩ := step_opening env known
      obtain rfl := Option.some.inj (steps_to.symm.trans steps)
      have kept := settles.keeps_dead member dead
      cases open_step <;> exact Or.inl ⟨trivial, kept⟩
  | sending startMs tick endMs hasSend reqs =>
      obtain ⟨left, next, steps_to, settles, send_step⟩ := step_sending env known
      obtain rfl := Option.some.inj (steps_to.symm.trans steps)
      have kept := settles.keeps_dead member dead
      cases send_step <;> exact Or.inl ⟨trivial, kept⟩
  | receiving startMs tick endMs reqs =>
      obtain ⟨left, next, steps_to, settles, -, next_cases⟩ := step_receiving env known
      obtain rfl := Option.some.inj (steps_to.symm.trans steps)
      have kept := settles.keeps_dead member dead
      rcases next_cases with rfl | ⟨rfl, -⟩ <;> exact Or.inl ⟨trivial, kept⟩
  | notifying reqs =>
      obtain rfl := Option.some.inj steps
      exact Or.inr ⟨_, _, rfl⟩
  | _ => exact underway.elim

theorem keeps_dead (reach : Reaches env list call) (underway : Underway call)
    (member : req ∈ call.reqs) (dead : ¬ req.Live)
    (later : Relation.ReflTransGen (fun before after => before.step env = some after) call
      (.notifying reqs)) : req ∈ reqs := by
  have kept : ∀ after, Relation.ReflTransGen (fun before after => before.step env = some after) call
      after → Underway after ∧ req ∈ after.reqs ∨ ∃ ret out, after = .returned ret out := by
    intro after run
    induction run with
    | refl => exact Or.inl ⟨underway, member⟩
    | tail run steps induction =>
        rcases induction with ⟨still, is_in⟩ | ⟨ret, out, rfl⟩
        · exact step_keeps_dead (Reaches.known (reach.trans run)).1 still steps is_in dead
        · cases steps
  rcases kept _ later with ⟨-, is_in⟩ | ⟨ret, out, same⟩
  · exact is_in
  · cases same

theorem init_step_cases {done todo : List Request} (known : (Call.init done todo).Known clean)
    (steps : (Call.init done todo).step env = some after) :
    after = .newsock done ∨ (∃ more rest, after = .init more rest) ∨
      ∃ out, after = .returned (-1) out := by
  cases todo with
  | nil => exact Or.inl (Option.some.inj steps).symm
  | cons req todo =>
      by_cases negative : req.initConnEnv.1 < 0
      · rw [step_init_failed env negative] at steps
        exact Or.inr (Or.inr ⟨_, (Option.some.inj steps).symm⟩)
      · obtain ⟨next, -, -, steps_to⟩ := step_init env negative known
        exact Or.inr (Or.inl ⟨_, _, Option.some.inj (steps.symm.trans steps_to)⟩)

/-- A call returns from its callbacks, or because `InitConnEnv` has failed. -/
theorem Reaches.returned_cases (returns : Reaches env list (.returned ret out)) :
    (∃ reqs, Reaches env list (.notifying reqs)) ∨
      ret = -1 ∧ ∃ done req todo, Reaches env list (.init done (req :: todo)) ∧
        req.initConnEnv.1 < 0 ∧ out = done ++ req.initConnEnv.2 :: todo := by
  cases returns.cases_tail with
  | inl same => cases same
  | inr step =>
      obtain ⟨before, reach, steps⟩ := step
      have known := (Reaches.known reach).1
      cases before with
      | init done todo =>
          cases todo with
          | nil => cases steps
          | cons req todo =>
              by_cases negative : req.initConnEnv.1 < 0
              · rw [step_init_failed env negative] at steps
                cases steps
                exact Or.inr ⟨rfl, done, req, todo, reach, negative, rfl⟩
              · obtain ⟨next, -, -, steps_to⟩ := step_init env negative known
                cases steps_to.symm.trans steps
      | newsock reqs =>
          obtain ⟨next, steps_to, newsock⟩ := step_newsock env known
          obtain rfl := Option.some.inj (steps_to.symm.trans steps)
          cases newsock
      | opening startMs tick endMs hasOpen reqs =>
          obtain ⟨left, next, steps_to, -, open_step⟩ := step_opening env known
          obtain rfl := Option.some.inj (steps_to.symm.trans steps)
          cases open_step
      | sending startMs tick endMs hasSend reqs =>
          obtain ⟨left, next, steps_to, -, send_step⟩ := step_sending env known
          obtain rfl := Option.some.inj (steps_to.symm.trans steps)
          cases send_step
      | receiving startMs tick endMs reqs =>
          obtain ⟨left, next, steps_to, -, -, next_cases⟩ := step_receiving env known
          obtain rfl := Option.some.inj (steps_to.symm.trans steps)
          rcases next_cases with same | ⟨same, -⟩ <;> cases same
      | notifying reqs => exact Or.inl ⟨reqs, reach⟩
      | returned ret reqs => cases steps

/-- A call comes to its callbacks from every point that is not after them. -/
theorem Reaches.to_notifying (at_end : Reaches env list (.notifying reqs))
    (reach : Reaches env list call) :
    Relation.ReflTransGen (fun before after => before.step env = some after) call
      (.notifying reqs) ∨ ∃ out, call = .returned 0 out := by
  rcases reach.total at_end with later | later
  · exact Or.inl later
  · cases later.cases_head with
    | inl same =>
        rw [same]
        exact Or.inl .refl
    | inr step =>
        obtain ⟨next, steps, rest⟩ := step
        obtain rfl := Option.some.inj steps
        exact Or.inr ⟨_, eq_of_returned rest⟩

theorem Reaches.notifying_unique (at_end : Reaches env list (.notifying reqs))
    (reach : Reaches env list (.notifying left)) : left = reqs := by
  rcases at_end.to_notifying reach with later | ⟨out, same⟩
  · cases later.cases_head with
    | inl same => exact Call.notifying.inj same
    | inr step =>
        obtain ⟨next, steps, rest⟩ := step
        obtain rfl := Option.some.inj steps
        cases eq_of_returned rest
  · cases same

theorem Reaches.prompt (at_end : Reaches env list (.notifying reqs))
    (resolved : ∀ req ∈ reqs, req.Resolved) (reach : Reaches env list call) : call.Prompt env := by
  have known := (Reaches.known reach).1
  cases call with
  | newsock before =>
      obtain ⟨next, steps, newsock⟩ := step_newsock env known
      have next_reach := reach.tail steps
      have later := (at_end.to_notifying next_reach)
      cases next with
      | opening startMs tick endMs hasOpen made =>
          cases newsock with
          | created sockets =>
              refine ⟨fun req member dead => ?_, Or.inl sockets⟩
              have is_in : req ∈ before.map newsockOne :=
                List.mem_map.2 ⟨req, member, newsockOne_of_not_live dead⟩
              rcases later with later | ⟨out, same⟩
              · have kept := keeps_dead next_reach trivial is_in dead later
                exact ((known req member).resolved_iff.1 (resolved req kept)).1
              · cases same
      | notifying left =>
          obtain rfl := at_end.notifying_unique next_reach
          exact (newsock.resolved_iff known).1 resolved
      | _ => cases newsock
  | opening startMs tick endMs hasOpen before =>
      intro is_late opened
      obtain ⟨left, next, steps, settles, open_step⟩ := step_opening env known
      have next_reach := reach.tail steps
      cases open_step with
      | again in_time known => exact absurd in_time (not_le.2 is_late)
      | send known unopened => exact unopened is_late opened
      | late late known opened =>
          obtain rfl := at_end.notifying_unique next_reach
          obtain ⟨req, member, done⟩ := opened
          refine not_resolved_of_live done.1 ?_ (resolved req (settles.keeps_done member done))
          rw [done.2]
          decide
  | sending startMs tick endMs hasSend before =>
      intro is_late
      obtain ⟨left, next, steps, settles, send_step⟩ := step_sending env known
      have next_reach := reach.tail steps
      cases send_step with
      | again in_time known => exact absurd in_time (not_le.2 is_late)
      | recv known sent => exact Or.inl (sent is_late)
      | late late inRecv unsent =>
          obtain rfl := at_end.notifying_unique next_reach
          refine Or.inr fun req member live completes => ?_
          have tried := (known.1 req member).tryOne tick
          obtain ⟨still, done, -⟩ := tried.completes live (fun sent => unsent ⟨req, member, sent⟩)
            completes
          have is_in := settles.keeps _ (List.mem_map_of_mem member) still
          refine not_resolved_of_live done.1 ?_ (resolved _ is_in)
          rw [done.2]
          decide
  | _ => exact trivial

theorem InRecv.resolved (inRecv : InRecv True req)
    (not_session : req.action.connObjType ≠ .objUdpSession)
    (finished : req.Live → req.action.flag = .flagFin) : req.Resolved := by
  have live_of_fin : req.action.flag = .flagFin → req.Live := fun fin =>
    not_not.1 fun dead => inRecv.dead trivial dead fin
  refine ⟨⟨fun fin => ?_, fun received => (inRecv.received received).2⟩, fun not_fin live => ?_,
    inRecv.opened⟩
  · exact inRecv.done not_session ⟨live_of_fin fin, fin⟩
  · exact not_fin (finished live)

/-- An action that has just come from `mt_multi_sendto` has been sent. -/
theorem done_of_inRecv {other : Prop} (inSend : InSend clean req) (inRecv : InRecv other req)
    (live : req.Live) : mtMultiSendto.Done req := by
  refine ⟨live, (inSend.flag live).resolve_left fun is_open => ?_⟩
  rcases inRecv.flag live with is_send | is_fin
  · cases is_open.symm.trans is_send
  · cases is_open.symm.trans is_fin

/-- If no action had been sent, then a live one has been sent in this round. -/
theorem SettlesAll.completes {tick : Nat} {other : Prop}
    (settles : SettlesAll (reqs.map (mtMultiSendto.tryOne tick)) left)
    (inSend : ∀ req ∈ reqs, InSend clean req) (unsent : ¬ ∃ req ∈ reqs, mtMultiSendto.Done req)
    (member : req ∈ left) (inRecv : InRecv other req) (live : req.Live) :
    ∃ origin ∈ reqs, origin.Live ∧ origin.Completes tick ∧ req.sort = origin.sort := by
  obtain ⟨origin, origin_mem, settled⟩ := settles.origin member
  have tried := (inSend origin origin_mem).tryOne tick
  cases settled with
  | failed waits is_error => exact absurd live is_error
  | same =>
      rcases tried.done (done_of_inRecv tried.inSend inRecv live) with done | ⟨sent, completes⟩
      · exact absurd ⟨origin, origin_mem, done⟩ unsent
      · exact ⟨origin, origin_mem, sent, completes, tried.sort_eq⟩

theorem Reaches.resolved (short : ∀ entry ∈ list, entry.1.connObjType ≠ .objUdpSession)
    (prompt : ∀ call, Reaches env list call → call.Prompt env) (reach : Reaches env list call) :
    call.Known True ∧ ∀ reqs, call = .notifying reqs → ∀ req ∈ reqs, req.Resolved := by
  induction reach with
  | refl => exact ⟨Known.start True list, nofun⟩
  | @tail before after run steps induction =>
      obtain ⟨known, -⟩ := induction
      have is_prompt := prompt before run
      have sorts := (Reaches.known (Reaches.tail run steps)).2
      refine ⟨(known.step ?_ steps).1, ?_⟩
      · rintro reqs rfl -
        exact is_prompt.1
      · rintro left rfl req member
        have not_session : req.action.connObjType ≠ .objUdpSession := by
          have sort_mem : req.sort ∈ (Call.notifying left).reqs.map Request.sort :=
            List.mem_map_of_mem member
          rw [sorts] at sort_mem
          obtain ⟨entry, entry_mem, same⟩ := List.mem_map.1 sort_mem
          rw [← (Prod.mk.inj same).2]
          exact short entry entry_mem
        cases before with
        | newsock reqs =>
            obtain ⟨next, steps_to, newsock⟩ := step_newsock env known
            obtain rfl := Option.some.inj (steps_to.symm.trans steps)
            exact (newsock.resolved_iff known).2 is_prompt req member
        | opening startMs tick endMs hasOpen reqs =>
            obtain ⟨gone, next, steps_to, -, open_step⟩ := step_opening env known
            obtain rfl := Option.some.inj (steps_to.symm.trans steps)
            cases open_step with
            | late late inOpen opened => exact absurd opened (is_prompt late)
        | sending startMs tick endMs hasSend reqs =>
            obtain ⟨gone, next, steps_to, settles, send_step⟩ := step_sending env known
            obtain rfl := Option.some.inj (steps_to.symm.trans steps)
            cases send_step with
            | late late inRecv unsent =>
                refine (inRecv req member).resolved not_session fun live => ?_
                obtain ⟨origin, origin_mem, sent, completes, -⟩ :=
                  settles.completes known.1 unsent member (inRecv req member) live
                have none_sent := (is_prompt late).resolve_left unsent
                exact absurd completes (none_sent origin origin_mem sent)
        | receiving startMs tick endMs reqs =>
            obtain ⟨gone, next, steps_to, -, inRecv, next_cases⟩ := step_receiving env known
            obtain rfl := Option.some.inj (steps_to.symm.trans steps)
            rcases next_cases with same | ⟨same, finished⟩
            · cases same
            · cases same
              exact (inRecv req member).resolved not_session (finished req member)
        | init done todo =>
            rcases init_step_cases known steps with same | ⟨_, _, same⟩ | ⟨_, same⟩ <;> cases same
        | notifying reqs | returned ret reqs => cases steps

theorem Reaches.io_eq (returns : Reaches env list (.returned ret out)) :
    out.map Request.io = list.map Prod.snd := by
  have sorts : out.map Request.sort = list.map fun entry => (entry.2, entry.1.connObjType) :=
    (Reaches.known returns).2
  have ios := congrArg (List.map Prod.fst) sorts
  rwa [List.map_map, List.map_map] at ios

/-- When a call returns 0, it is about the actions of the list, and each action has had one
callback, the right one, and has not been given up because of the others, exactly if the call has
been prompt. -/
theorem returned_answered_iff (short : ∀ entry ∈ list, entry.1.connObjType ≠ .objUdpSession)
    (returns : Reaches env list (.returned 0 out)) :
    (out.map Request.io = list.map Prod.snd) ∧
      ((∀ req ∈ out, req.Answered ∧ req.Served) ↔
        ∀ call, Reaches env list call → call.Prompt env) := by
  obtain ⟨reqs, at_end⟩ : ∃ reqs, Reaches env list (.notifying reqs) :=
    returns.returned_cases.resolve_right fun failed => absurd failed.1 (by decide)
  have out_eq := returns.out_eq at_end
  have known : ∀ req ∈ reqs, req.Ready ∧ ∀ event ∈ req.trace, event.Early :=
    (Reaches.known at_end).1
  have resolved_iff : (∀ req ∈ out, req.Answered ∧ req.Served) ↔ ∀ req ∈ reqs, req.Resolved := by
    subst out_eq
    simp only [List.map_map, List.forall_mem_map, Function.comp_apply]
    exact forall₂_congr fun req member => answered_iff (known req member).1 (known req member).2
  refine ⟨returns.io_eq, ?_⟩
  rw [resolved_iff]
  constructor
  · exact fun resolved call reach => at_end.prompt resolved reach
  · exact fun prompt => (Reaches.resolved short prompt at_end).2 reqs rfl

end Prompt

/-! ## Two calls -/

/-- So many steps. -/
def Call.runFor (env : Env) : Nat → Call → Call
  | 0, call => call
  | count + 1, call => ((Call.runFor env count call).step env).getD (Call.runFor env count call)

theorem reaches_runFor (env : Env) (list : List (IMtAction × ActionIO)) (count : Nat) :
    Reaches env list (Call.runFor env count (Call.start list)) := by
  induction count with
  | zero => exact .refl
  | succ count induction =>
      rw [Call.runFor]
      cases steps : (Call.runFor env count (Call.start list)).step env with
      | none => exact induction
      | some after => exact induction.tail steps

/-- A connection that works. -/
def sampleIO : ActionIO where
  connection := true
  msgBuff := true
  ntfyObj := true
  encode := 0
  encodeLen := 10
  socket := 5
  connect := fun _ => .ok
  send := fun _ => .accepted 10
  recv := fun _ => .got 7
  input := fun _ => 7
  attached := fun _ => none
  cached := true

/-- No time passes. -/
def sampleEnv : Env where
  timeout := 100
  clock := fun _ => 0
  poll := fun _ => .ready

/-- The response cannot be received. -/
def brokenIO : ActionIO := { sampleIO with recv := fun _ => .failed }

/-- Two requests, one of them broken. -/
def pairList (action : IMtAction) : List (IMtAction × ActionIO) :=
  [(action, sampleIO), (action, brokenIO)]

/-- Both after eight steps. -/
def pairOut (action : IMtAction) : List Request :=
  (Call.runFor sampleEnv 8 (Call.start (pairList action))).reqs

theorem pairOut_trace :
    (pairOut .new).map Request.trace =
      [[.opened, .send 10 10, .input 7, .process, .freed false],
        [.opened, .send 10 10, .error .errRecvFail, .freed false]] := by
  decide

/-- One response is handed to `HandleProcess`, and the other action gets its error. -/
theorem returned_answered_iff_pair :
    Reaches sampleEnv (pairList .new) (.returned 0 (pairOut .new)) ∧
      (∀ req ∈ pairOut .new, req.Answered ∧ req.Served) ∧
      ∀ call, Reaches sampleEnv (pairList .new) call → call.Prompt sampleEnv := by
  have returns : Reaches sampleEnv (pairList .new) (.returned 0 (pairOut .new)) :=
    reaches_runFor sampleEnv (pairList .new) 8
  have answered : ∀ req ∈ pairOut .new, req.Answered ∧ req.Served := by
    intro req member
    have trace_mem : req.trace ∈ (pairOut .new).map Request.trace := List.mem_map_of_mem member
    rw [pairOut_trace, List.mem_pair] at trace_mem
    unfold Request.Answered Request.Served Request.Tried Request.Received Request.callbacks
    rcases trace_mem with trace_eq | trace_eq
    · rw [trace_eq]
      exact ⟨Or.inl ⟨rfl, 7, by decide, by decide⟩, fun _ => ⟨10, 10, by decide⟩⟩
    · rw [trace_eq]
      exact ⟨Or.inr ⟨.errRecvFail, by decide, rfl, by simp⟩, fun _ => ⟨10, 10, by decide⟩⟩
  exact ⟨returns, answered, (returned_answered_iff
    (by simp [pairList, IMtAction.new, IMtAction.connObjType]) returns).2.1 answered⟩

/-- A TCP connection that is never opened. -/
def hangingIO : ActionIO := { sampleIO with connect := fun _ => .inProgress }

/-- The time is over at tick 3. -/
def lateEnv : Env where
  timeout := 100
  clock := fun tick => if tick ≤ 2 then 0 else 150
  poll := fun _ => .timedOut

/-- One works, one hangs. -/
def mixedList : List (IMtAction × ActionIO) :=
  [(.new, sampleIO), ({ IMtAction.new with proto := .mtTcp }, hangingIO)]

/-- The TCP connection is not opened in time. -/
def lateOut : List Request := (Call.runFor lateEnv 7 (Call.start mixedList)).reqs

theorem lateOut_trace :
    lateOut.map Request.trace =
      [[.opened, .error .errNone, .freed false], [.error .errConnectFail, .freed false]] := by
  decide

/-- The UDP request is never sent, and its only callback is `HandleError` with `ERR_NONE`. -/
theorem returned_unanswered :
    Monotone lateEnv.clock ∧ (∀ entry ∈ mixedList, entry.1.connObjType ≠ .objUdpSession) ∧
    Reaches lateEnv mixedList (.returned 0 lateOut) ∧
    ∃ req ∈ lateOut, req.callbacks = [.error .errNone] ∧ ¬ req.Answered ∧ ¬ req.Served := by
  refine ⟨fun early later le => ?_, by decide, reaches_runFor lateEnv mixedList 7, ?_⟩
  · simp only [lateEnv]
    split_ifs <;> omega
  · have trace_mem : [.opened, .error .errNone, .freed false] ∈ lateOut.map Request.trace := by
      rw [lateOut_trace]
      exact List.mem_cons_self
    obtain ⟨req, member, trace_eq⟩ := List.mem_map.1 trace_mem
    have callbacks_eq : req.callbacks = [.error .errNone] := by
      rw [Request.callbacks, trace_eq]
      rfl
    refine ⟨req, member, callbacks_eq, ?_, fun served => ?_⟩
    · rintro (⟨processed, -⟩ | ⟨code, is_error, failed, -⟩)
      · cases callbacks_eq.symm.trans processed
      · cases callbacks_eq.symm.trans failed
        exact is_error rfl
    · obtain ⟨count, ret, sent⟩ := served (by rw [trace_eq]; exact List.mem_cons_self)
      rw [trace_eq] at sent
      simp at sent

end Spp.MsgSendrcv
