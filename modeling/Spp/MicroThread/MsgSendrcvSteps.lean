import Spp.MicroThread.MsgSendrcvPhases

/-!
# Steps of `mt_msg_sendrcv`

What is known at each point of a call (`Call.Known`), and how a call comes from one point to the
next.
-/

namespace Spp.MsgSendrcv

/-- A request after its first phase. -/
structure Request.Inited (req : Request) : Prop where
  ready : req.Ready
  trace : req.trace = []
  counted : ∀ conn buff, req.action.conn = some conn → conn.msgBuff = some buff → buff.sendLen = 0

/-- What `mt_multi_newsock` does to an action whose socket it creates. -/
def newsockOne (req : Request) : Request :=
  if req.Live then
    if req.action.proto = .mtUdp then
      (req.setMsgFlag .flagOpen).record .opened
    else
      req.setMsgFlag .flagInit
  else
    req

variable {req after : Request} {entry : Request × Bool} {done todo : List Request}

section Newsock

variable {clean : Prop} {reqs : List Request}

theorem newsockOne_of_not_live (dead : ¬ req.Live) : newsockOne req = req := if_neg dead

theorem newsockOne_live (live : req.Live) : (newsockOne req).Live := by
  rw [newsockOne, if_pos live]
  split
  · exact live
  · exact live

theorem newsockOne_sort (req : Request) : (newsockOne req).sort = req.sort := by
  rw [newsockOne]
  split_ifs <;> rfl

theorem newsockOne_flag (live : req.Live) : (newsockOne req).action.flag ≠ .flagFin := by
  rw [newsockOne, if_pos live]
  split
  · exact nofun
  · exact nofun

theorem Request.Inited.inOpen (inited : req.Inited)
    (dead : clean → ¬ req.Live → req.action.flag ≠ .flagFin) : InOpen clean (newsockOne req) := by
  by_cases live : req.Live
  · rw [newsockOne, if_pos live]
    split
    · refine ⟨inited.ready, fun event member => ?_, fun _ => Or.inr rfl,
        fun _ is_dead => absurd live is_dead, fun _ => ⟨live, rfl⟩, inited.counted⟩
      rw [Request.record, Request.setMsgFlag, inited.trace] at member
      exact List.mem_singleton.1 member
    · have empty : (req.setMsgFlag .flagInit).trace = [] := inited.trace
      refine ⟨inited.ready, ?_, fun _ => Or.inl rfl, fun _ is_dead => absurd live is_dead, ?_,
        inited.counted⟩
      · rw [empty]
        simp
      · rw [empty]
        simp
  · rw [newsockOne_of_not_live live]
    refine ⟨inited.ready, ?_, fun is_live => absurd is_live live, dead, ?_, inited.counted⟩
    · rw [inited.trace]
      simp
    · rw [inited.trace]
      simp

theorem mtMultiNewsock_of_sockets (hasOk : Bool) (inited : ∀ req ∈ reqs, req.Inited)
    (sockets : ∀ req ∈ reqs, req.Live → 0 ≤ req.io.socket) :
    mtMultiNewsock hasOk reqs =
      (if hasOk || reqs.any fun req => req.Live then 0 else -4, reqs.map newsockOne) := by
  induction reqs generalizing hasOk with
  | nil => simp [mtMultiNewsock]
  | cons req rest induction =>
      have rest_inited := fun other member => inited other (List.mem_cons_of_mem req member)
      have rest_sockets := fun other member => sockets other (List.mem_cons_of_mem req member)
      obtain ⟨conn, -, found, -⟩ := (inited req List.mem_cons_self).ready
      rw [mtMultiNewsock]
      by_cases live : req.Live
      · have created : ¬ req.io.socket < 0 := not_lt.2 (sockets req List.mem_cons_self live)
        simp [live, found, created, induction true rest_inited rest_sockets, newsockOne]
      · simp [live, induction hasOk rest_inited rest_sockets, newsockOne]

theorem mtMultiNewsock_of_failure (hasOk : Bool) (inited : ∀ req ∈ reqs, req.Inited)
    (failing : ∃ req ∈ reqs, req.Live ∧ req.io.socket < 0) :
    ∃ before req after, reqs = before ++ req :: after ∧ req.Live ∧ req.io.socket < 0 ∧
      mtMultiNewsock hasOk reqs =
        (-3, before.map newsockOne ++ req.setErrno .errSocketFail :: after) := by
  induction reqs generalizing hasOk with
  | nil => simp at failing
  | cons req rest induction =>
      have rest_inited := fun other member => inited other (List.mem_cons_of_mem req member)
      obtain ⟨conn, -, found, -⟩ := (inited req List.mem_cons_self).ready
      by_cases fails : req.Live ∧ req.io.socket < 0
      · refine ⟨[], req, rest, rfl, fails.1, fails.2, ?_⟩
        rw [mtMultiNewsock]
        simp [fails.1, fails.2, found]
      · have later : ∃ other ∈ rest, other.Live ∧ other.io.socket < 0 := by
          obtain ⟨other, member, other_fails⟩ := failing
          rcases List.mem_cons.1 member with rfl | member
          · exact absurd other_fails fails
          · exact ⟨other, member, other_fails⟩
        by_cases live : req.Live
        · obtain ⟨before, first, after, rfl, first_live, first_fails, made⟩ :=
            induction true rest_inited later
          refine ⟨req :: before, first, after, rfl, first_live, first_fails, ?_⟩
          have created : ¬ req.io.socket < 0 := fun negative => fails ⟨live, negative⟩
          rw [mtMultiNewsock]
          simp [live, found, created, made, newsockOne]
        · obtain ⟨before, first, after, rfl, first_live, first_fails, made⟩ :=
            induction hasOk rest_inited later
          refine ⟨req :: before, first, after, rfl, first_live, first_fails, ?_⟩
          rw [mtMultiNewsock]
          simp [live, made, newsockOne]

end Newsock

/-! ## The first loop -/

section Init

theorem initConnEnv_of_neg (negative : req.initConnEnv.1 < 0) (free : req.action.conn = none) :
    req.io.connection = false ∧ req.initConnEnv.2 = req ∨
      req.io.connection = true ∧ (req.io.msgBuff = false ∨ req.io.ntfyObj = false) ∧
        req.initConnEnv.2.action.conn ≠ none := by
  revert negative
  unfold Request.initConnEnv
  simp only [free]
  split_ifs with connection msgBuff ntfyObj
  · intro negative
    exact absurd negative (lt_irrefl 0)
  · exact fun _ => Or.inr ⟨connection, Or.inr (by simpa using ntfyObj), nofun⟩
  · exact fun _ => Or.inr ⟨connection, Or.inl (by simpa using msgBuff), nofun⟩
  · exact fun _ => Or.inl ⟨by simpa using connection, rfl⟩

theorem initConnEnv_sort (req : Request) : req.initConnEnv.2.sort = req.sort := by
  unfold Request.initConnEnv
  split
  · rfl
  · split_ifs <;> rfl

theorem initConnEnv_of_nonneg (nonneg : ¬ req.initConnEnv.1 < 0) :
    (req.io.connection = true ∧ req.io.msgBuff = true ∧ req.io.ntfyObj = true) ∧
      req.initConnEnv.2 =
        req.setIConnection (some ⟨req.action.connObjType, some ⟨0, 0, 0⟩, true⟩) := by
  revert nonneg
  unfold Request.initConnEnv
  split
  · exact fun nonneg => absurd (show (-100 : Int) < 0 by decide) nonneg
  · split_ifs with connection msgBuff ntfyObj
    · exact fun _ => ⟨⟨connection, msgBuff, ntfyObj⟩, rfl⟩
    · exact fun nonneg => absurd (show (-3 : Int) < 0 by decide) nonneg
    · exact fun nonneg => absurd (show (-2 : Int) < 0 by decide) nonneg
    · exact fun nonneg => absurd (show (-1 : Int) < 0 by decide) nonneg

theorem doEncode_inited {conn : IMtConnection} {buff : MtMsgBuf}
    (found : req.action.conn = some conn) (has_buff : conn.msgBuff = some buff)
    (inited : req.Inited) :
    req.doEncode.2.Inited ∧ req.doEncode.2.sort = req.sort := by
  unfold Request.doEncode
  simp only [found, has_buff]
  split
  · exact ⟨inited, rfl⟩
  · obtain ⟨other, -, at_req, -, type_eq, -⟩ := inited.ready
    obtain rfl : other = conn := Option.some.inj (at_req.symm.trans found)
    refine ⟨⟨⟨_, _, rfl, rfl, type_eq, Int.natCast_nonneg _⟩, inited.trace, ?_⟩, rfl⟩
    rintro after later ⟨⟩ ⟨⟩
    exact inited.counted other buff found has_buff

theorem initConnEnv_inited (nonneg : ¬ req.initConnEnv.1 < 0) (fresh : req.trace = []) :
    req.initConnEnv.2.doEncode.2.Inited ∧ req.initConnEnv.2.doEncode.2.sort = req.sort := by
  rw [(initConnEnv_of_nonneg nonneg).2]
  refine doEncode_inited rfl rfl ⟨⟨_, _, rfl, rfl, rfl, le_refl 0⟩, fresh, ?_⟩
  rintro conn buff ⟨⟩ ⟨⟩
  rfl

theorem Request.Inited.setErrno (inited : req.Inited) (err : MultiError) :
    (req.setErrno err).Inited :=
  { inited with }

end Init

/-! ## What is known at each point -/

namespace Call

/-- The requests of a call. -/
def reqs : Call → List Request
  | .init done todo => done ++ todo
  | .newsock reqs => reqs
  | .opening _ _ _ _ reqs => reqs
  | .sending _ _ _ _ reqs => reqs
  | .receiving _ _ _ reqs => reqs
  | .notifying reqs => reqs
  | .returned _ reqs => reqs

/-- What holds in each phase. -/
def Known (clean : Prop) : Call → Prop
  | .init done todo => (∀ req ∈ done, req.Inited) ∧ ∀ req ∈ todo, req.trace = []
  | .newsock reqs => ∀ req ∈ reqs, req.Inited
  | .opening _ _ _ hasOpen reqs => (∀ req ∈ reqs, InOpen clean req) ∧
      (hasOpen = true → ∃ req ∈ reqs, mtMultiOpen.Done req)
  | .sending _ _ _ hasSend reqs => (∀ req ∈ reqs, InSend clean req) ∧
      (hasSend = true → ∃ req ∈ reqs, mtMultiSendto.Done req)
  | .receiving _ _ _ reqs => ∀ req ∈ reqs, InRecv clean req
  | .notifying reqs => ∀ req ∈ reqs, req.Ready ∧ ∀ event ∈ req.trace, event.Early
  | .returned _ _ => True

end Call

section Steps

variable {clean : Prop} {env : Env} {startMs tick endMs : Nat} {found : Bool}
  {reqs left : List Request}
  {phase : Phase}

theorem found_iff (known : found = true → ∃ req ∈ reqs, phase.Done req) :
    (found || reqs.any fun req => phase.Done req) = true ↔ ∃ req ∈ reqs, phase.Done req := by
  simp only [Bool.or_eq_true, List.any_eq_true, decide_eq_true_eq]
  exact ⟨fun either => either.elim known id, Or.inr⟩

section Settled

variable (settles : SettlesAll (reqs.map (phase.tryOne tick)) left)

include settles

theorem SettlesAll.keeps_same (member : req ∈ reqs)
    (tried : phase.tryOne tick req = (req, false)) : req ∈ left := by
  have kept := settles.keeps _ (List.mem_map_of_mem member)
  rw [tried] at kept
  exact kept rfl

theorem SettlesAll.keeps_done (member : req ∈ reqs) (done : phase.Done req) : req ∈ left :=
  settles.keeps_same member (tryOne_of_done done.2)

theorem SettlesAll.keeps_dead (member : req ∈ reqs) (dead : ¬ req.Live) : req ∈ left :=
  settles.keeps_same member (tryOne_of_not_live dead)

theorem SettlesAll.origin (member : req ∈ left) :
    ∃ origin ∈ reqs, Settles (phase.tryOne tick origin) req := by
  obtain ⟨entry, entry_mem, settled⟩ := settles.from_entry req member
  obtain ⟨origin, origin_mem, rfl⟩ := List.mem_map.1 entry_mem
  exact ⟨origin, origin_mem, settled⟩

theorem SettlesAll.forall_left {post : Request → Prop}
    (each : ∀ origin ∈ reqs, ∀ req, Settles (phase.tryOne tick origin) req → post req) :
    ∀ req ∈ left, post req := by
  intro req member
  obtain ⟨origin, origin_mem, settled⟩ := settles.origin member
  exact each origin origin_mem req settled

end Settled

theorem OpenTry.settles (tried : OpenTry clean req entry) (settles : Settles entry after) :
    InOpen clean after := by
  cases settles with
  | same => exact tried.inOpen
  | failed waits is_error =>
      obtain ⟨live, not_done⟩ := tried.waits waits
      exact tried.inOpen.fail live not_done is_error

theorem SendTry.settles (tried : SendTry clean tick req entry) (settles : Settles entry after) :
    InSend clean after ∧ (.opened ∈ after.trace → after.Tried) := by
  cases settles with
  | same => exact ⟨tried.inSend, tried.tried⟩
  | failed waits is_error =>
      obtain ⟨live, not_done⟩ := tried.waits waits
      exact ⟨tried.inSend.fail live not_done tried.tried is_error, tried.tried⟩

theorem RecvTry.settles (tried : RecvTry clean req entry) (settles : Settles entry after) :
    InRecv clean after := by
  cases settles with
  | same => exact tried.inRecv
  | failed waits is_error => exact tried.inRecv.fail (tried.waits waits).2 is_error

theorem flag_of_ended {flag : MultiState} (settles : Settles entry req)
    (ended : entry.2 = true → ¬ req.Live)
    (still : entry.2 = false → entry.1.Live → entry.1.action.flag = flag) (live : req.Live) :
    req.action.flag = flag := by
  cases settles with
  | same =>
      cases waits : entry.2 with
      | true => exact absurd live (ended waits)
      | false => exact still waits live
  | failed waits is_error => exact absurd live is_error

theorem connected_of_ready (ready : ∀ req ∈ reqs, req.Ready) :
    ∀ req ∈ reqs, req.action.conn ≠ none :=
  fun req member => (ready req member).conn_ne_none

/-- A step of `mt_multi_open`. -/
inductive OpenStep (clean : Prop) (env : Env) (startMs tick endMs : Nat)
    (reqs left : List Request) :
    Call → Prop where
  | again {hasOpen : Bool} (in_time : env.clock tick ≤ endMs)
      (known : (Call.opening startMs (tick + 1) endMs hasOpen left).Known clean) :
      OpenStep clean env startMs tick endMs reqs left
        (.opening startMs (tick + 1) endMs hasOpen left)
  | send {later : Nat} (known : ∀ req ∈ left, InSend clean req)
      (unopened : endMs < env.clock tick → ¬ ∃ req ∈ reqs, mtMultiOpen.Done req) :
      OpenStep clean env startMs tick endMs reqs left
        (.sending startMs (tick + 3) later false left)
  | late (late : endMs < env.clock tick) (known : ∀ req ∈ left, InOpen clean req)
      (opened : ∃ req ∈ reqs, mtMultiOpen.Done req) :
      OpenStep clean env startMs tick endMs reqs left (.notifying left)

theorem step_opening (env : Env)
    (known : (Call.opening startMs tick endMs found reqs).Known clean) :
    ∃ left after, (Call.opening startMs tick endMs found reqs).step env = some after ∧
      SettlesAll (reqs.map (mtMultiOpen.tryOne tick)) left ∧
      OpenStep clean env startMs tick endMs reqs left after := by
  obtain ⟨inOpen, found_of⟩ := known
  have still : ∀ left, SettlesAll (reqs.map (mtMultiOpen.tryOne tick)) left →
      ∀ req ∈ left, InOpen clean req := fun left settles =>
    settles.forall_left fun origin member _ => (inOpen origin member).tryOne.settles
  have finished : ∀ left, SettlesAll (reqs.map (mtMultiOpen.tryOne tick)) left →
      (∀ req ∈ left, ∃ origin ∈ reqs, Settles (mtMultiOpen.tryOne tick origin) req ∧
        ((mtMultiOpen.tryOne tick origin).2 = true → ¬ req.Live)) →
      ∀ req ∈ left, InSend clean req := by
    intro left settles ended req member
    obtain ⟨origin, origin_mem, settled, waiting⟩ := ended req member
    exact (still left settles req member).inSend
      (flag_of_ended settled waiting (inOpen origin origin_mem).tryOne.finished)
  have round_case := roundCase env tick endMs found (show mtMultiOpen.lateErr ≠ .errNone by decide)
    (connected_of_ready fun req member => (inOpen req member).ready)
  rw [Call.step]
  generalize mtMultiOpen.round env tick endMs found reqs = round at round_case
  cases round_case with
  | again in_time settles =>
      refine ⟨_, _, rfl, settles, .again in_time ⟨still _ settles, fun is_found => ?_⟩⟩
      obtain ⟨req, member, done⟩ := (found_iff found_of).1 is_found
      exact ⟨req, settles.keeps_done member done, done⟩
  | finished in_time settles ended =>
      exact ⟨_, _, rfl, settles, .send (finished _ settles ended)
        fun late => absurd in_time (not_le.2 late)⟩
  | late late settles ended =>
      cases is_found : found || reqs.any fun req => mtMultiOpen.Done req with
      | false =>
          refine ⟨_, _, rfl, settles, .send (finished _ settles ended) fun _ opened => ?_⟩
          rw [(found_iff found_of).2 opened] at is_found
          cases is_found
      | true =>
          exact ⟨_, _, rfl, settles, .late late (still _ settles) ((found_iff found_of).1 is_found)⟩

/-- A step of `mt_multi_sendto`. -/
inductive SendStep (clean : Prop) (env : Env) (startMs tick endMs : Nat)
    (reqs left : List Request) :
    Call → Prop where
  | again {hasSend : Bool} (in_time : env.clock tick ≤ endMs)
      (known : (Call.sending startMs (tick + 1) endMs hasSend left).Known clean) :
      SendStep clean env startMs tick endMs reqs left
        (.sending startMs (tick + 1) endMs hasSend left)
  | recv {later : Nat} (known : ∀ req ∈ left, InRecv clean req)
      (sent : endMs < env.clock tick → ∃ req ∈ reqs, mtMultiSendto.Done req) :
      SendStep clean env startMs tick endMs reqs left (.receiving startMs (tick + 3) later left)
  | late (late : endMs < env.clock tick) (known : ∀ req ∈ left, InRecv clean req)
      (unsent : ¬ ∃ req ∈ reqs, mtMultiSendto.Done req) :
      SendStep clean env startMs tick endMs reqs left (.notifying left)

theorem step_sending (env : Env)
    (known : (Call.sending startMs tick endMs found reqs).Known clean) :
    ∃ left after, (Call.sending startMs tick endMs found reqs).step env = some after ∧
      SettlesAll (reqs.map (mtMultiSendto.tryOne tick)) left ∧
      SendStep clean env startMs tick endMs reqs left after := by
  obtain ⟨inSend, found_of⟩ := known
  have finished : ∀ left, SettlesAll (reqs.map (mtMultiSendto.tryOne tick)) left →
      (∀ req ∈ left, ∃ origin ∈ reqs, Settles (mtMultiSendto.tryOne tick origin) req ∧
        ((mtMultiSendto.tryOne tick origin).2 = true → ¬ req.Live)) →
      ∀ req ∈ left, InRecv clean req := by
    intro left settles ended req member
    obtain ⟨origin, origin_mem, settled, waiting⟩ := ended req member
    have tried := (inSend origin origin_mem).tryOne tick
    exact (tried.settles settled).1.inRecv (flag_of_ended settled waiting tried.finished)
      (tried.settles settled).2
  have round_case :=
    roundCase env tick endMs found (show mtMultiSendto.lateErr ≠ .errNone by decide)
    (connected_of_ready fun req member => (inSend req member).ready)
  rw [Call.step]
  generalize mtMultiSendto.round env tick endMs found reqs = round at round_case
  cases round_case with
  | again in_time settles =>
      have still : ∀ req ∈ _, InSend clean req := settles.forall_left fun origin member _ settled =>
        (((inSend origin member).tryOne tick).settles settled).1
      refine ⟨_, _, rfl, settles, .again in_time ⟨still, fun is_found => ?_⟩⟩
      obtain ⟨req, member, done⟩ := (found_iff found_of).1 is_found
      exact ⟨req, settles.keeps_done member done, done⟩
  | finished in_time settles ended =>
      exact ⟨_, _, rfl, settles, .recv (finished _ settles ended)
        fun late => absurd in_time (not_le.2 late)⟩
  | late late settles ended =>
      cases is_found : found || reqs.any fun req => mtMultiSendto.Done req with
      | true =>
          exact ⟨_, _, rfl, settles, .recv (finished _ settles ended)
            fun _ => (found_iff found_of).1 is_found⟩
      | false =>
          refine ⟨_, _, rfl, settles, .late late (finished _ settles ended) fun sent => ?_⟩
          rw [(found_iff found_of).2 sent] at is_found
          cases is_found

theorem step_receiving (env : Env) (known : (Call.receiving startMs tick endMs reqs).Known clean) :
    ∃ left after, (Call.receiving startMs tick endMs reqs).step env = some after ∧
      SettlesAll (reqs.map (mtMultiRecvfrom.tryOne tick)) left ∧
      (∀ req ∈ left, InRecv clean req) ∧
      (after = .receiving startMs (tick + 1) endMs left ∨
        after = .notifying left ∧ ∀ req ∈ left, req.Live → req.action.flag = .flagFin) := by
  have still : ∀ left, SettlesAll (reqs.map (mtMultiRecvfrom.tryOne tick)) left →
      ∀ req ∈ left, InRecv clean req := fun left settles =>
    settles.forall_left fun origin member _ => (known origin member).tryOne.settles
  have finished : ∀ left : List Request, (∀ req ∈ left, ∃ origin ∈ reqs,
        Settles (mtMultiRecvfrom.tryOne tick origin) req ∧
        ((mtMultiRecvfrom.tryOne tick origin).2 = true → ¬ req.Live)) →
      ∀ req ∈ left, req.Live → req.action.flag = .flagFin := by
    intro left ended req member
    obtain ⟨origin, origin_mem, settled, waiting⟩ := ended req member
    exact flag_of_ended settled waiting (known origin origin_mem).tryOne.finished
  have round_case := roundCase env tick endMs false
    (show mtMultiRecvfrom.lateErr ≠ .errNone by decide)
    (connected_of_ready fun req member => (known req member).ready)
  rw [Call.step]
  generalize mtMultiRecvfrom.round env tick endMs false reqs = round at round_case
  cases round_case with
  | again in_time settles => exact ⟨_, _, rfl, settles, still _ settles, Or.inl rfl⟩
  | finished in_time settles ended | late late settles ended =>
      exact ⟨_, _, rfl, settles, still _ settles, Or.inr ⟨rfl, finished _ ended⟩⟩

/-- A step of `mt_multi_newsock`. -/
inductive NewsockStep (reqs : List Request) : Call → Prop where
  | created {startMs endMs : Nat} (sockets : ∀ req ∈ reqs, req.Live → 0 ≤ req.io.socket) :
      NewsockStep reqs (.opening startMs 2 endMs false (reqs.map newsockOne))
  | empty (dead : ∀ req ∈ reqs, ¬ req.Live) : NewsockStep reqs (.notifying reqs)
  | failed {before after : List Request} {req : Request} (reqs_eq : reqs = before ++ req :: after)
      (live : req.Live) (fails : req.io.socket < 0) :
      NewsockStep reqs
        (.notifying (before.map newsockOne ++ req.setErrno .errSocketFail :: after))

theorem step_newsock (env : Env) (known : (Call.newsock reqs).Known clean) :
    ∃ after, (Call.newsock reqs).step env = some after ∧ NewsockStep reqs after := by
  rw [Call.step]
  by_cases sockets : ∀ req ∈ reqs, req.Live → 0 ≤ req.io.socket
  · rw [mtMultiNewsock_of_sockets false known sockets, Bool.false_or]
    cases some_live : reqs.any fun req => req.Live with
    | true => exact ⟨_, rfl, .created sockets⟩
    | false =>
        have dead : ∀ req ∈ reqs, ¬ req.Live := by simpa using some_live
        have same : reqs.map newsockOne = reqs := by
          rw [List.map_congr_left fun req member => newsockOne_of_not_live (dead req member)]
          exact List.map_id' reqs
        rw [same]
        exact ⟨_, rfl, .empty dead⟩
  · push Not at sockets
    obtain ⟨before, req, after, reqs_eq, live, fails, made⟩ :=
      mtMultiNewsock_of_failure false known sockets
    rw [made]
    exact ⟨_, rfl, .failed reqs_eq live fails⟩

theorem step_init (env : Env) (nonneg : ¬ req.initConnEnv.1 < 0)
    (known : (Call.init done (req :: todo)).Known clean) :
    ∃ next, next.Inited ∧ next.sort = req.sort ∧
      (Call.init done (req :: todo)).step env = some (.init (done ++ [next]) todo) := by
  obtain ⟨inited, sort_eq⟩ := initConnEnv_inited nonneg (known.2 req List.mem_cons_self)
  rw [Call.step, if_neg nonneg]
  by_cases fails : req.initConnEnv.2.doEncode.1 < 0
  · exact ⟨_, inited.setErrno .errEncodeError, sort_eq, if_pos fails⟩
  · exact ⟨_, inited, sort_eq, if_neg fails⟩

theorem step_init_failed (env : Env) (negative : req.initConnEnv.1 < 0) :
    (Call.init done (req :: todo)).step env =
      some (.returned (-1) (done ++ req.initConnEnv.2 :: todo)) := by
  rw [Call.step, if_pos negative]

/-! ## Every step keeps what is known -/

theorem SettlesAll.sorts (settles : SettlesAll (reqs.map (phase.tryOne tick)) left)
    (tries : ∀ req ∈ reqs, (phase.tryOne tick req).1.sort = req.sort) :
    left.map Request.sort = reqs.map Request.sort := by
  rw [settles.sort_eq, List.map_map]
  exact List.map_congr_left tries

theorem InOpen.early (inOpen : InOpen clean req) :
    req.Ready ∧ ∀ event ∈ req.trace, event.Early := by
  refine ⟨inOpen.ready, fun event member => ?_⟩
  rw [inOpen.trace event member]
  exact trivial

theorem InRecv.early (inRecv : InRecv clean req) : req.Ready ∧ ∀ event ∈ req.trace, event.Early :=
  ⟨inRecv.ready, inRecv.trace⟩

theorem Request.Inited.early (inited : req.Inited) :
    req.Ready ∧ ∀ event ∈ req.trace, event.Early := by
  refine ⟨inited.ready, ?_⟩
  rw [inited.trace]
  simp

theorem notify_reset_sort (req : Request) : req.notify.reset.sort = req.sort := by
  have notify_sort : req.notify.sort = req.sort := by
    unfold Request.notify Request.doError Request.doProcess
    split_ifs
    · rfl
    · split
      · split_ifs <;> rfl
      · rfl
  unfold Request.reset
  split
  · exact notify_sort
  · exact notify_sort

theorem NewsockStep.known {after : Call} (step : NewsockStep reqs after)
    (inited : ∀ req ∈ reqs, req.Inited)
    (dead : clean → ∀ req ∈ reqs, ¬ req.Live → req.action.flag ≠ .flagFin) :
    after.Known clean ∧ after.reqs.map Request.sort = reqs.map Request.sort := by
  have inOpen : ∀ req ∈ reqs, InOpen clean (newsockOne req) := fun req member =>
    (inited req member).inOpen fun is_clean => dead is_clean req member
  cases step with
  | created sockets =>
      refine ⟨⟨fun req member => ?_, nofun⟩, ?_⟩
      · obtain ⟨origin, origin_mem, rfl⟩ := List.mem_map.1 member
        exact inOpen origin origin_mem
      · show (reqs.map newsockOne).map Request.sort = _
        rw [List.map_map]
        exact List.map_congr_left fun req _ => newsockOne_sort req
  | empty dead => exact ⟨fun req member => (inited req member).early, rfl⟩
  | @failed before rest req reqs_eq live fails =>
      subst reqs_eq
      refine ⟨fun other member => ?_, ?_⟩
      · rcases List.mem_append.1 member with member | member
        · obtain ⟨origin, origin_mem, rfl⟩ := List.mem_map.1 member
          exact (inOpen origin (List.mem_append_left _ origin_mem)).early
        · rcases List.mem_cons.1 member with rfl | member
          · exact ((inited req (by simp)).setErrno _).early
          · exact (inited other (by simp [member])).early
      · show (before.map newsockOne ++ req.setErrno .errSocketFail :: rest).map Request.sort = _
        rw [List.map_append, List.map_append, List.map_map, List.map_cons, List.map_cons]
        congr 1
        exact List.map_congr_left fun req _ => newsockOne_sort req

theorem Call.Known.step {call after : Call} (known : call.Known clean)
    (dead : ∀ reqs, call = .newsock reqs → clean →
      ∀ req ∈ reqs, ¬ req.Live → req.action.flag ≠ .flagFin)
    (steps : call.step env = some after) :
    after.Known clean ∧ after.reqs.map Request.sort = call.reqs.map Request.sort := by
  cases call with
  | init done todo =>
      cases todo with
      | nil =>
          obtain rfl : Call.newsock done = after := Option.some.inj steps
          exact ⟨known.1, by simp [Call.reqs]⟩
      | cons req todo =>
          by_cases negative : req.initConnEnv.1 < 0
          · rw [step_init_failed env negative] at steps
            obtain rfl := Option.some.inj steps
            exact ⟨trivial, by simp [Call.reqs, initConnEnv_sort]⟩
          · obtain ⟨next, inited, sort_eq, steps_to⟩ := step_init env negative known
            obtain rfl := Option.some.inj (steps_to.symm.trans steps)
            exact ⟨⟨List.forall_mem_append.2 ⟨known.1, List.forall_mem_singleton.2 inited⟩,
              List.forall_mem_of_forall_mem_cons known.2⟩, by simp [Call.reqs, sort_eq]⟩
  | newsock reqs =>
      obtain ⟨next, steps_to, newsock⟩ := step_newsock env known
      obtain rfl := Option.some.inj (steps_to.symm.trans steps)
      exact newsock.known known (dead reqs rfl)
  | opening startMs tick endMs hasOpen reqs =>
      obtain ⟨left, next, steps_to, settles, open_step⟩ := step_opening env known
      obtain rfl := Option.some.inj (steps_to.symm.trans steps)
      have sorts := settles.sorts fun req member => (known.1 req member).tryOne.sort_eq
      cases open_step with
      | again in_time known => exact ⟨known, sorts⟩
      | send known unopened => exact ⟨⟨known, nofun⟩, sorts⟩
      | late late known opened => exact ⟨fun req member => (known req member).early, sorts⟩
  | sending startMs tick endMs hasSend reqs =>
      obtain ⟨left, next, steps_to, settles, send_step⟩ := step_sending env known
      obtain rfl := Option.some.inj (steps_to.symm.trans steps)
      have sorts := settles.sorts fun req member => ((known.1 req member).tryOne tick).sort_eq
      cases send_step with
      | again in_time known | recv known sent => exact ⟨known, sorts⟩
      | late late known unsent => exact ⟨fun req member => (known req member).early, sorts⟩
  | receiving startMs tick endMs reqs =>
      obtain ⟨left, next, steps_to, settles, inRecv, next_cases⟩ := step_receiving env known
      obtain rfl := Option.some.inj (steps_to.symm.trans steps)
      have sorts := settles.sorts fun req member => (known req member).tryOne.sort_eq
      rcases next_cases with rfl | ⟨rfl, -⟩
      · exact ⟨inRecv, sorts⟩
      · exact ⟨fun req member => (inRecv req member).early, sorts⟩
  | notifying reqs =>
      obtain rfl := Option.some.inj steps
      refine ⟨trivial, ?_⟩
      show ((reqs.map Request.notify).map Request.reset).map Request.sort = _
      rw [List.map_map, List.map_map]
      exact List.map_congr_left fun req _ => notify_reset_sort req
  | returned ret reqs => cases steps

end Steps

end Spp.MsgSendrcv
