import Spp.MicroThread.MsgSendrcvRun

/-!
# Connections after `mt_msg_sendrcv`

A call gives all its connections back, and a TCP connection becomes idle only after a response or
before the first byte of a request, exactly if the call is `Tidy`.
-/

namespace Spp.MsgSendrcv

/-- The action has no connection, and the one that it had can be used by others. -/
def Request.GivenBack (req : Request) : Prop :=
  req.action.conn = none ∧ (.freed true ∈ req.trace → req.Received ∨ req.Unsent)

/-- A connection that is kept is a clean one. -/
def Request.Reusable (req : Request) : Prop :=
  req.action.connObjType = .objTcpKeep → req.Live → req.io.cached = true → req.Received ∨ req.Unsent

/-- The call gives all connections back as it should.  In the first loop, an action gets its
connection, its buffer and its notify object, or it is the first one and gets no connection; when
the time is over in `mt_multi_sendto`, a request was sent before the last round, or no TCP request
whose connection becomes idle is sent in it. -/
def Call.Tidy (env : Env) : Call → Prop
  | .init done (req :: _) =>
      (req.io.connection = true ∧ req.io.msgBuff = true ∧ req.io.ntfyObj = true) ∨
        done = [] ∧ req.io.connection = false
  | .sending _ tick endMs _ reqs => endMs < env.clock tick →
      (∃ req ∈ reqs, mtMultiSendto.Done req) ∨
        ∀ req ∈ reqs, req.action.connObjType = .objTcpKeep → req.io.cached = true → req.Live →
          ¬ req.Completes tick
  | _ => True

section Tidy

variable {clean : Prop} {env : Env} {list : List (IMtAction × ActionIO)} {call after : Call}
  {reqs left out : List Request} {req : Request}

theorem givenBack_iff (ready : req.Ready) (early : ∀ event ∈ req.trace, event.Early) :
    req.notify.reset.GivenBack ↔ req.Reusable := by
  obtain ⟨conn_eq, trace_eq⟩ := notify_reset_trace ready
  have unsent_iff : req.notify.reset.Unsent ↔ req.Unsent := by
    simp only [Request.Unsent, trace_eq]
    split_ifs <;> simp
  have freed_iff : .freed true ∈ req.notify.reset.trace ↔
      req.action.connObjType = .objTcpKeep ∧ req.Live ∧ req.io.cached = true := by
    have not_yet : .freed true ∉ req.trace := fun member => early _ member
    rw [trace_eq]
    split_ifs <;> simp [not_yet]
  rw [Request.GivenBack, Request.Reusable, conn_eq, freed_iff,
    notify_reset_received ready, unsent_iff]
  simp only [true_and, and_imp]

theorem unsent_of_opened (trace : ∀ event ∈ req.trace, event = .opened) : req.Unsent := by
  intro count ret member
  cases trace _ member

theorem Request.Inited.unsent (inited : req.Inited) : req.Unsent := by
  refine unsent_of_opened ?_
  rw [inited.trace]
  simp

theorem NewsockStep.unsent (step : NewsockStep reqs (.notifying left))
    (inited : ∀ req ∈ reqs, req.Inited) : ∀ req ∈ left, req.Unsent := by
  cases step with
  | empty dead => exact fun req member => (inited req member).unsent
  | @failed before rest req reqs_eq live fails =>
      subst reqs_eq
      intro other member
      rcases List.mem_append.1 member with is_in | is_in
      · obtain ⟨origin, origin_mem, rfl⟩ := List.mem_map.1 is_in
        have inOpen : InOpen False (newsockOne origin) :=
          (inited origin (by simp [origin_mem])).inOpen fun impossible => impossible.elim
        exact unsent_of_opened inOpen.trace
      · rcases List.mem_cons.1 is_in with rfl | is_in
        · exact ((inited req (by simp)).setErrno _).unsent
        · exact (inited other (by simp [is_in])).unsent

/-- The connections that a tidy call gives back can be used by others. -/
theorem Reaches.reusable (tidy : ∀ call, Reaches env list call → call.Tidy env)
    (at_end : Reaches env list (.notifying reqs)) : ∀ req ∈ reqs, req.Reusable := by
  intro req member
  cases at_end.cases_tail with
  | inl same => cases same
  | inr step =>
      obtain ⟨before, run, steps⟩ := step
      have reach : Reaches env list before := run
      have known := (Reaches.known reach).1
      cases before with
      | init done todo =>
          rcases init_step_cases known steps with same | ⟨_, _, same⟩ | ⟨_, same⟩ <;> cases same
      | newsock before =>
          obtain ⟨next, steps_to, newsock⟩ := step_newsock env known
          obtain rfl := Option.some.inj (steps_to.symm.trans steps)
          exact fun _ _ _ => Or.inr (newsock.unsent known req member)
      | opening startMs tick endMs hasOpen before =>
          obtain ⟨gone, next, steps_to, -, open_step⟩ := step_opening env known
          obtain rfl := Option.some.inj (steps_to.symm.trans steps)
          cases open_step with
          | late late inOpen opened =>
              exact fun _ _ _ => Or.inr (unsent_of_opened (inOpen req member).trace)
      | sending startMs tick endMs hasSend before =>
          obtain ⟨gone, next, steps_to, settles, send_step⟩ := step_sending env known
          obtain rfl := Option.some.inj (steps_to.symm.trans steps)
          cases send_step with
          | late late inRecv unsent =>
              intro tcp live cached
              obtain ⟨origin, origin_mem, sent, completes, sort_eq⟩ :=
                settles.completes known.1 unsent member (inRecv req member) live
              obtain ⟨io_eq, type_eq⟩ := Prod.mk.inj sort_eq
              have none_sent := (tidy _ reach late).resolve_left unsent
              exact absurd completes
                (none_sent origin origin_mem (type_eq ▸ tcp) (io_eq ▸ cached) sent)
      | receiving startMs tick endMs before =>
          obtain ⟨gone, next, steps_to, -, inRecv, next_cases⟩ := step_receiving env known
          obtain rfl := Option.some.inj (steps_to.symm.trans steps)
          rcases next_cases with same | ⟨same, finished⟩
          · cases same
          · cases same
            intro tcp live _
            refine Or.inl ((inRecv req member).done ?_ ⟨live, finished req member live⟩)
            rw [tcp]
            decide
      | notifying before | returned ret before => cases steps

/-- The number of a phase. -/
def Call.stage : Call → Nat
  | .init _ _ => 0
  | .newsock _ => 1
  | .opening _ _ _ _ _ => 2
  | .sending _ _ _ _ _ => 3
  | .receiving _ _ _ _ => 4
  | .notifying _ => 5
  | .returned _ _ => 6

theorem Call.Known.stage_le (known : call.Known clean) (steps : call.step env = some after) :
    call.stage ≤ after.stage := by
  cases call with
  | init done todo => exact Nat.zero_le _
  | newsock reqs =>
      obtain ⟨next, steps_to, newsock⟩ := step_newsock env known
      obtain rfl := Option.some.inj (steps_to.symm.trans steps)
      cases newsock <;> simp [Call.stage]
  | opening startMs tick endMs hasOpen reqs =>
      obtain ⟨left, next, steps_to, -, open_step⟩ := step_opening env known
      obtain rfl := Option.some.inj (steps_to.symm.trans steps)
      cases open_step <;> simp [Call.stage]
  | sending startMs tick endMs hasSend reqs =>
      obtain ⟨left, next, steps_to, -, send_step⟩ := step_sending env known
      obtain rfl := Option.some.inj (steps_to.symm.trans steps)
      cases send_step <;> simp [Call.stage]
  | receiving startMs tick endMs reqs =>
      obtain ⟨left, next, steps_to, -, -, next_cases⟩ := step_receiving env known
      obtain rfl := Option.some.inj (steps_to.symm.trans steps)
      rcases next_cases with rfl | ⟨rfl, -⟩ <;> simp [Call.stage]
  | notifying reqs =>
      obtain rfl := Option.some.inj steps
      simp [Call.stage]
  | returned ret reqs => cases steps

theorem Reaches.todo_free (free : ∀ entry ∈ list, entry.1.conn = none)
    (reach : Reaches env list call) :
    ∀ done todo, call = .init done todo → ∀ req ∈ todo, req.action.conn = none := by
  induction reach with
  | refl =>
      rintro done todo same req member
      cases same
      obtain ⟨entry, entry_mem, rfl⟩ := List.mem_map.1 member
      exact free entry entry_mem
  | @tail before after run steps induction =>
      rintro done todo rfl req member
      have known := (Reaches.known run).1
      have not_back := known.stage_le steps
      cases before with
      | init earlier rest =>
          cases rest with
          | nil => cases steps
          | cons first rest =>
              by_cases negative : first.initConnEnv.1 < 0
              · rw [step_init_failed env negative] at steps
                cases steps
              · obtain ⟨next, -, -, steps_to⟩ := step_init env negative known
                cases steps_to.symm.trans steps
                exact induction _ _ rfl req (List.mem_cons_of_mem first member)
      | _ => exact absurd not_back (by simp [Call.stage])

/-- A call that gives all connections back as it should has been tidy. -/
theorem Reaches.tidy {ret : Int} (free : ∀ entry ∈ list, entry.1.conn = none)
    (returns : Reaches env list (.returned ret out)) (given : ∀ req ∈ out, req.GivenBack)
    (reach : Reaches env list call) : call.Tidy env := by
  have known := (Reaches.known reach).1
  cases call with
  | init done todo =>
      cases todo with
      | nil => exact trivial
      | cons req todo =>
          by_cases negative : req.initConnEnv.1 < 0
          · have at_end := reach.tail (step_init_failed env negative)
            have same := eq_of_returned (returns.returns at_end)
            obtain ⟨-, rfl⟩ := Call.returned.inj same
            have req_free := reach.todo_free free done (req :: todo) rfl req List.mem_cons_self
            have no_conn := (given req.initConnEnv.2 (by simp)).1
            rcases initConnEnv_of_neg negative req_free with ⟨no_connection, -⟩ | ⟨-, -, has_conn⟩
            · refine Or.inr ⟨List.eq_nil_iff_forall_not_mem.2 fun other member => ?_, no_connection⟩
              exact (known.1 other member).ready.conn_ne_none (given other (by simp [member])).1
            · exact absurd no_conn has_conn
          · exact Or.inl (initConnEnv_of_nonneg negative).1
  | sending startMs tick endMs hasSend before =>
      intro is_late
      obtain ⟨left, next, steps, settles, send_step⟩ := step_sending env known
      have next_reach := reach.tail steps
      cases send_step with
      | again in_time known => exact absurd in_time (not_le.2 is_late)
      | recv known sent => exact Or.inl (sent is_late)
      | late late inRecv unsent =>
          refine Or.inr fun req member tcp cached live completes => ?_
          have tried := (known.1 req member).tryOne tick
          obtain ⟨still, done, sent⟩ := tried.completes live
            (fun sent => unsent ⟨req, member, sent⟩) completes
          have is_in := settles.keeps _ (List.mem_map_of_mem member) still
          obtain ⟨io_eq, type_eq⟩ := Prod.mk.inj tried.sort_eq
          have out_eq := returns.out_eq next_reach
          have given_back := given (mtMultiSendto.tryOne tick req).1.notify.reset (by
            rw [out_eq]
            exact List.mem_map_of_mem (List.mem_map_of_mem is_in))
          have early := (inRecv _ is_in).early
          rcases (givenBack_iff early.1 early.2).1 given_back (type_eq.trans tcp) done.1
            ((congrArg ActionIO.cached io_eq).trans cached) with received | none_sent
          · have fin := ((inRecv _ is_in).received received).2
            cases fin.symm.trans done.2
          · exact sent tcp none_sent
  | _ => exact trivial

/-- When a call returns, it is about the actions of the list, and no action holds a connection and
each TCP connection that has become idle can be used by others, exactly if the call was tidy. -/
theorem returned_givenBack_iff {ret : Int} (free : ∀ entry ∈ list, entry.1.conn = none)
    (returns : Reaches env list (.returned ret out)) :
    (out.map Request.io = list.map Prod.snd) ∧
      ((∀ req ∈ out, req.GivenBack) ↔ ∀ call, Reaches env list call → call.Tidy env) := by
  refine ⟨returns.io_eq, fun given call reach => returns.tidy free given reach, fun tidy => ?_⟩
  rcases returns.returned_cases with ⟨reqs, at_end⟩ | ⟨-, done, req, todo, reach, negative, rfl⟩
  · rw [returns.out_eq at_end]
    simp only [List.map_map, List.forall_mem_map, Function.comp_apply]
    intro req member
    obtain ⟨ready, early⟩ : req.Ready ∧ ∀ event ∈ req.trace, event.Early :=
      (Reaches.known at_end).1 req member
    exact (givenBack_iff ready early).2 (at_end.reusable tidy req member)
  · have todo_free := reach.todo_free free done (req :: todo) rfl
    have todo_fresh := (Reaches.known reach).1.2
    have untouched : ∀ other ∈ req :: todo, other.GivenBack := by
      intro other member
      refine ⟨todo_free other member, ?_⟩
      rw [todo_fresh other member]
      simp
    rcases tidy _ reach with ready | ⟨rfl, no_connection⟩
    · have failed := initConnEnv_of_neg negative (todo_free req List.mem_cons_self)
      simp [ready] at failed
    · rcases initConnEnv_of_neg negative (todo_free req List.mem_cons_self) with ⟨-, same⟩ | ⟨has,
        -⟩
      · rw [same]
        exact untouched
      · rw [no_connection] at has
        cases has

end Tidy

/-! ## Three calls -/

/-- An action over TCP. -/
def tcpAction : IMtAction := { IMtAction.new with proto := .mtTcp }

theorem pairOut_tcpAction_trace :
    (pairOut tcpAction).map (fun req => (req.action.conn.isNone, req.trace)) =
      [(true, [.opened, .send 10 10, .input 7, .process, .freed true]),
        (true, [.opened, .send 10 10, .error .errRecvFail, .freed false])] := by
  decide

/-- One connection becomes idle, the other one is closed. -/
theorem returned_givenBack_iff_pair :
    Reaches sampleEnv (pairList tcpAction) (.returned 0 (pairOut tcpAction)) ∧
      (∀ req ∈ pairOut tcpAction, req.GivenBack) ∧
      ∀ call, Reaches sampleEnv (pairList tcpAction) call → call.Tidy sampleEnv := by
  have returns : Reaches sampleEnv (pairList tcpAction) (.returned 0 (pairOut tcpAction)) :=
    reaches_runFor sampleEnv (pairList tcpAction) 8
  have given : ∀ req ∈ pairOut tcpAction, req.GivenBack := by
    intro req member
    have shown : (req.action.conn.isNone, req.trace) ∈
        (pairOut tcpAction).map fun req => (req.action.conn.isNone, req.trace) :=
      List.mem_map_of_mem member
    rw [pairOut_tcpAction_trace, List.mem_pair, Prod.mk.injEq, Prod.mk.injEq] at shown
    unfold Request.GivenBack Request.Received
    rcases shown with ⟨conn_eq, trace_eq⟩ | ⟨conn_eq, trace_eq⟩
    · rw [trace_eq]
      exact ⟨Option.isNone_iff_eq_none.1 conn_eq, fun _ => Or.inl ⟨7, by decide, by decide⟩⟩
    · rw [trace_eq]
      exact ⟨Option.isNone_iff_eq_none.1 conn_eq, by simp⟩
  exact ⟨returns, given, (returned_givenBack_iff (by simp [pairList, tcpAction, IMtAction.new])
    returns).2.1 given⟩

/-- The socket takes the request in the second round only. -/
def slowIO :
    ActionIO := { sampleIO with send := fun tick => if tick ≤ 5 then .again else .accepted 10 }

/-- The time is over at tick 6. -/
def slowEnv : Env where
  timeout := 100
  clock := fun tick => if tick ≤ 5 then 0 else 150
  poll := fun _ => .ready

/-- A TCP request that is sent when the time is over. -/
def slowOut : List Request := (Call.runFor slowEnv 7 (Call.start [(tcpAction, slowIO)])).reqs

theorem slowOut_trace :
    slowOut.map Request.trace =
      [[.opened, .send 0 0, .send 10 10, .error .errNone, .freed true]] := by
  decide

/-- The second action gets no buffer. -/
def starvedList : List (IMtAction × ActionIO) :=
  [(.new, sampleIO), (.new, { sampleIO with msgBuff := false })]

/-- After two steps. -/
def starvedOut : List Request := (Call.runFor sampleEnv 2 (Call.start starvedList)).reqs

/-- The connection of a request that has been sent becomes idle without the response; and both
actions keep their connections when `InitConnEnv` fails for the second one. -/
theorem returned_not_givenBack :
    (Monotone slowEnv.clock ∧ Reaches slowEnv [(tcpAction, slowIO)] (.returned 0 slowOut) ∧
      ∃ req ∈ slowOut, .freed true ∈ req.trace ∧ ¬ req.Received ∧ ¬ req.Unsent) ∧
    Reaches sampleEnv starvedList (.returned (-1) starvedOut) ∧
      (∀ entry ∈ starvedList, entry.1.conn.isNone) ∧
      starvedOut.map (fun req => req.action.conn.isSome) = [true, true] := by
  refine ⟨⟨fun early later le => ?_, reaches_runFor slowEnv [(tcpAction, slowIO)] 7, ?_⟩,
    reaches_runFor sampleEnv starvedList 2, by decide, by decide⟩
  · simp only [slowEnv]
    split_ifs <;> omega
  · have trace_mem : [.opened, .send 0 0, .send 10 10, .error .errNone, .freed true] ∈
        slowOut.map Request.trace := by
      rw [slowOut_trace]
      exact List.mem_cons_self
    obtain ⟨req, member, trace_eq⟩ := List.mem_map.1 trace_mem
    refine ⟨req, member, ?_, ?_, fun unsent => ?_⟩
    · rw [trace_eq]
      decide
    · rintro ⟨ret, -, received⟩
      rw [trace_eq] at received
      simp at received
    · have sent : .send 10 10 ∈ req.trace := by
        rw [trace_eq]
        decide
      exact absurd (unsent 10 10 sent) (by decide)

end Spp.MsgSendrcv
