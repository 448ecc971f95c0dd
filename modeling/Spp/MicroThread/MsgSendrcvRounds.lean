import Spp.MicroThread.MsgSendrcv

/-!
# Rounds of `mt_msg_sendrcv`

What a round of a loop does to each action, once all actions have connections.
-/

namespace Spp.MsgSendrcv

/-- A request has its connection and its buffer. -/
def Request.Ready (req : Request) : Prop :=
  ∃ conn buff, req.action.conn = some conn ∧ conn.msgBuff = some buff ∧
    conn.type = req.action.connObjType ∧ 0 ≤ buff.msgLen

/-- What no step changes of an action. -/
def Request.sort (req : Request) : ActionIO × ConnObjType := (req.io, req.action.connObjType)

/-- A round tries a request. -/
def Phase.tryOne (phase : Phase) (tick : Nat) (req : Request) : Request × Bool :=
  if req.Live ∧ req.action.flag ≠ phase.done then
    match req.action.conn with
    | none => (req, false)
    | some conn => phase.attempt tick req conn
  else
    (req, false)

/-- A phase is over for a request. -/
def Phase.Done (phase : Phase) (req : Request) : Prop :=
  req.Live ∧ req.action.flag = phase.done

instance (phase : Phase) (req : Request) : Decidable (phase.Done req) :=
  inferInstanceAs (Decidable (_ ∧ _))

section Rounds

variable {phase : Phase} {tick : Nat} {req : Request} {reqs : List Request}

theorem Request.Ready.conn_ne_none (ready : req.Ready) : req.action.conn ≠ none := by
  obtain ⟨conn, -, found, -⟩ := ready
  rw [found]
  simp

theorem tryOne_of_not_live (dead : ¬ req.Live) : phase.tryOne tick req = (req, false) :=
  if_neg fun tried => dead tried.1

theorem tryOne_of_done (done : req.action.flag = phase.done) :
    phase.tryOne tick req = (req, false) :=
  if_neg fun tried => tried.2 done

theorem pass_eq (connected : ∀ req ∈ reqs, req.action.conn ≠ none) :
    phase.pass tick reqs =
      ⟨false, reqs.any fun req => phase.Done req, reqs.map (phase.tryOne tick)⟩ := by
  induction reqs with
  | nil => rfl
  | cons req rest induction =>
      obtain ⟨conn, found⟩ := Option.ne_none_iff_exists'.1 (connected req List.mem_cons_self)
      rw [Phase.pass, induction fun other member =>
        connected other (List.mem_cons_of_mem req member)]
      by_cases live : req.Live
      · by_cases done : req.action.flag = phase.done
        · simp [live, done, Phase.Done, tryOne_of_done]
        · simp [live, done, found, Phase.Done, Phase.tryOne]
      · simp [live, Phase.Done, tryOne_of_not_live]

theorem round_eq (env : Env) (endMs : Nat) (found : Bool)
    (connected : ∀ req ∈ reqs, req.action.conn ≠ none) :
    phase.round env tick endMs found reqs =
      if env.clock tick > endMs then
        .done (phase.lateRet (found || reqs.any fun req => phase.Done req))
          (expire phase.lateErr (reqs.map (phase.tryOne tick)))
      else if (reqs.map (phase.tryOne tick)).any Prod.snd then
        .again (found || reqs.any fun req => phase.Done req)
          (mtMultiNetfdPoll (env.poll tick) (reqs.map (phase.tryOne tick)))
      else
        .done 0 ((reqs.map (phase.tryOne tick)).map Prod.fst) := by
  rw [Phase.round, pass_eq connected]
  rfl

end Rounds

/-! ## Errors of the actions that wait -/

/-- What becomes of an action after a pass: only an action that waits may get an error. -/
inductive Settles (entry : Request × Bool) : Request → Prop where
  | same : Settles entry entry.1
  | failed {err : MultiError} (waits : entry.2 = true) (is_error : err ≠ .errNone) :
      Settles entry (entry.1.setErrno err)

/-- The results of a wait. -/
structure SettlesAll (entries : List (Request × Bool)) (reqs : List Request) : Prop where
  from_entry : ∀ req ∈ reqs, ∃ entry ∈ entries, Settles entry req
  keeps : ∀ entry ∈ entries, entry.2 = false → entry.1 ∈ reqs
  sort_eq : reqs.map Request.sort = entries.map fun entry => entry.1.sort

section Settles

variable {entries : List (Request × Bool)} {reqs : List Request}

theorem SettlesAll.nil : SettlesAll [] [] :=
  ⟨fun _ member => absurd member List.not_mem_nil, fun _ member => absurd member List.not_mem_nil,
    rfl⟩

theorem SettlesAll.cons {entry : Request × Bool} {req : Request} (settles : Settles entry req)
    (rest : SettlesAll entries reqs) : SettlesAll (entry :: entries) (req :: reqs) := by
  refine ⟨fun other member => ?_, fun other member still => ?_, ?_⟩
  · rcases List.mem_cons.1 member with rfl | member
    · exact ⟨entry, List.mem_cons_self, settles⟩
    · obtain ⟨origin, origin_mem, settled⟩ := rest.from_entry other member
      exact ⟨origin, List.mem_cons_of_mem entry origin_mem, settled⟩
  · rcases List.mem_cons.1 member with rfl | member
    · cases settles with
      | same => exact List.mem_cons_self
      | failed waits is_error => simp [waits] at still
    · exact List.mem_cons_of_mem req (rest.keeps other member still)
  · cases settles <;> simp [rest.sort_eq, Request.setErrno, Request.sort, IMtAction.connObjType]

theorem settlesAll_map_fst (entries : List (Request × Bool)) :
    SettlesAll entries (entries.map Prod.fst) := by
  induction entries with
  | nil => exact .nil
  | cons entry rest induction => exact .cons .same induction

theorem settlesAll_expire {err : MultiError} (is_error : err ≠ .errNone)
    (entries : List (Request × Bool)) : SettlesAll entries (expire err entries) := by
  induction entries with
  | nil => exact .nil
  | cons entry rest induction =>
      rw [expire, List.map_cons]
      split
      · exact .cons (.failed ‹_› is_error) induction
      · exact .cons .same induction

theorem settlesAll_failLast {err : MultiError} (is_error : err ≠ .errNone)
    (entries : List (Request × Bool)) : SettlesAll entries (failLast err entries).2 := by
  induction entries with
  | nil => exact .nil
  | cons entry rest induction =>
      rw [failLast]
      split_ifs
      · exact .cons .same induction
      · exact .cons (.failed ‹_› is_error) induction
      · exact .cons .same induction

theorem settlesAll_failMissing (entries : List (Request × Bool)) :
    SettlesAll entries (failMissing entries).2 := by
  induction entries with
  | nil => exact .nil
  | cons entry rest induction =>
      rw [failMissing]
      split_ifs with missing
      · exact .cons (.failed missing.1 (by decide)) (settlesAll_map_fst rest)
      · exact .cons .same induction

theorem settlesAll_mtMultiNetfdPoll (poll : PollResult) (entries : List (Request × Bool)) :
    SettlesAll entries (mtMultiNetfdPoll poll entries) := by
  rw [mtMultiNetfdPoll]
  split_ifs
  · exact settlesAll_failMissing entries
  · exact settlesAll_failLast (by decide) entries
  · exact settlesAll_map_fst entries

end Settles

/-- How a round ends: another one follows, all actions are done or failed, or the time is over. -/
inductive RoundCase (phase : Phase) (env : Env) (tick endMs : Nat) (found : Bool)
    (reqs : List Request) : Round → Prop where
  | again {left : List Request} (in_time : env.clock tick ≤ endMs)
      (settles : SettlesAll (reqs.map (phase.tryOne tick)) left) :
      RoundCase phase env tick endMs found reqs
        (.again (found || reqs.any fun req => phase.Done req) left)
  | finished {left : List Request} (in_time : env.clock tick ≤ endMs)
      (settles : SettlesAll (reqs.map (phase.tryOne tick)) left)
      (ended : ∀ req ∈ left, ∃ origin ∈ reqs, Settles (phase.tryOne tick origin) req ∧
        ((phase.tryOne tick origin).2 = true → ¬ req.Live)) :
      RoundCase phase env tick endMs found reqs (.done 0 left)
  | late {left : List Request} (late : endMs < env.clock tick)
      (settles : SettlesAll (reqs.map (phase.tryOne tick)) left)
      (ended : ∀ req ∈ left, ∃ origin ∈ reqs, Settles (phase.tryOne tick origin) req ∧
        ((phase.tryOne tick origin).2 = true → ¬ req.Live)) :
      RoundCase phase env tick endMs found reqs
        (.done (phase.lateRet (found || reqs.any fun req => phase.Done req)) left)

theorem roundCase {phase : Phase} {reqs : List Request} (env : Env) (tick endMs : Nat)
    (found : Bool)
    (is_error : phase.lateErr ≠ .errNone)
    (connected : ∀ req ∈ reqs, req.action.conn ≠ none) :
    RoundCase phase env tick endMs found reqs (phase.round env tick endMs found reqs) := by
  rw [round_eq env endMs found connected]
  split_ifs with late waiting
  · refine .late late (settlesAll_expire is_error _) fun req member => ?_
    rw [expire, List.map_map] at member
    obtain ⟨origin, origin_mem, rfl⟩ := List.mem_map.1 member
    refine ⟨origin, origin_mem, ?_⟩
    rw [Function.comp_apply]
    split
    · exact ⟨.failed ‹_› is_error, fun _ => is_error⟩
    · exact ⟨.same, fun waits => absurd waits ‹_›⟩
  · exact .again (not_lt.1 late) (settlesAll_mtMultiNetfdPoll _ _)
  · refine .finished (not_lt.1 late) (settlesAll_map_fst _) fun req member => ?_
    rw [List.map_map] at member
    obtain ⟨origin, origin_mem, rfl⟩ := List.mem_map.1 member
    refine ⟨origin, origin_mem, .same, fun waits => absurd ?_ waiting⟩
    exact List.any_eq_true.2 ⟨_, List.mem_map_of_mem origin_mem, waits⟩

end Spp.MsgSendrcv
