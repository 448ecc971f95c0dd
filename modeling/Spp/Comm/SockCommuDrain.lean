import Spp.Comm.SockCommuRecv

/-!
# Reading a socket until there is nothing left

The fds of `CTSockCommu` are registered with `EPOLLET`, so that `epoll` tells once that there is
input.  The receive part of `poll` calls `recv` until it fails with `EAGAIN`, but at most 50 times:
when 50 calls in a row give bytes, the loop ends with a flow that is open and may have more input.
-/

namespace Spp

/-- `check_per_expire` -/
def CConnSet.checkPerExpire (conns : CConnSet) (flow : Nat) (deadline : Int) : Bool :=
  flow = (conns.getcc flow).flow ∧ ((conns.getcc flow).access.1 : Int) < deadline

namespace CTSockCommu

variable {ι γ : Type}

/-- The loop of the receive part of `poll`, with the results of `recv`. -/
def pollRecvLog (recvdata : ι → TConnExtInfo → List UInt8 → γ → Option (Int × γ)) (flow : Nat) :
    (retry : Nat) → CTSockCommu → γ → (Nat → RecvInput ι) →
      Option ((CTSockCommu × γ) × List ReceiveOutcome)
  | 0, commu, state, _ => some ((commu, state), [])
  | retry + 1, commu, state, inputs => do
      let polled ← commu.pollRecvOnce recvdata flow state (inputs 0)
      if polled.again then
        let rest ← pollRecvLog recvdata flow retry polled.commu polled.state fun round =>
          inputs (round + 1)
        return (rest.1, (inputs 0).outcome :: rest.2)
      else
        return ((polled.commu, polled.state), [(inputs 0).outcome])

variable (recvdata : ι → TConnExtInfo → List UInt8 → γ → Option (Int × γ)) (flow : Nat)

/-- The part of `poll` for `EPOLLIN`, with the time at its end. -/
def pollIn (expiretime now : Nat) (commu : CTSockCommu) (state : γ) (inputs : Nat → RecvInput ι) :
    Option ((CTSockCommu × γ) × List ReceiveOutcome) := do
  let ((commu, state), log) ← pollRecvLog recvdata flow 50 commu state inputs
  if expiretime ≠ 0 ∧ commu.conns.checkPerExpire flow (now - expiretime) then
    return ((commu.closeconn flow, state), log)
  else
    return ((commu, state), log)

/-! ## What ends the loop -/

variable {flow} {commu : CTSockCommu} {conn : ConnCache}

/-- `CConnSet::recv` gives bytes to the cache, or the connection has to be closed, or there is no
input. -/
theorem recv_cases {now : Nat × Nat} {outcome : ReceiveOutcome} {fresh : Fresh}
    {recving : ConnCache.Recving} (eq : conn.recv now outcome fresh = some recving) :
    recving.conn.flow = conn.flow ∧
      ((outcome.bytes ≠ [] ∧ (recving.ret.getD (-eNeedClose) > 0 ∨
          recving.ret.getD (-eNeedClose) = -eRecvDone)) ∨
        recving.ret.getD (-eNeedClose) = -eNeedClose ∨
        (outcome = .failed 11 ∧ recving.ret.getD (-eNeedClose) = -eAgain)) := by
  cases outcome with
  | failed errno =>
      obtain rfl := Option.some.inj eq
      refine ⟨rfl, Or.inr ?_⟩
      show (conn.touch now).recvError errno = _ ∨ _ ∧ (conn.touch now).recvError errno = _
      rw [ConnCache.recvError]
      split
      · rename_i again
        have errno_eq : errno = 11 := Int.ofNat.inj again.2
        exact Or.inr ⟨congrArg ReceiveOutcome.failed errno_eq, rfl⟩
      · exact Or.inl rfl
  | received bytes =>
      rw [ConnCache.recv] at eq
      split at eq
      · obtain rfl := Option.some.inj eq
        exact ⟨rfl, Or.inr (Or.inl rfl)⟩
      · rename_i some_bytes
        obtain ⟨appended, -, eq⟩ := Option.bind_eq_some_iff.1 eq
        obtain rfl := Option.some.inj eq
        refine ⟨rfl, ?_⟩
        cases appended.thrown with
        | true => exact Or.inr (Or.inl rfl)
        | false =>
            refine Or.inl ⟨some_bytes, ?_⟩
            show (conn.touch now).recvdLen bytes.length > 0 ∨
              (conn.touch now).recvdLen bytes.length = -eRecvDone
            rw [ConnCache.recvdLen]
            split
            · exact Or.inr rfl
            · exact Or.inl (Int.natCast_pos.2 (List.length_pos_iff.2 some_bytes))

theorem known_withConn (known : ¬commu.conns.Unknown flow)
    (flow_eq : conn.flow = (commu.conns.getcc flow).flow) :
    ¬(commu.withConn flow conn).conns.Unknown flow := by
  rw [CConnSet.Unknown, withConn_getcc, flow_eq]
  exact known

/-- The end of a round with bytes: the flow is closed if and only if there is no other round. -/
theorem recvdataDone_cases (known : ¬commu.conns.Unknown flow) (protoLen : Int) (state : γ) :
    ((commu.recvdataDone flow protoLen state).again = true ∧
        ¬(commu.recvdataDone flow protoLen state).commu.conns.Unknown flow) ∨
      ((commu.recvdataDone flow protoLen state).again = false ∧
        (commu.recvdataDone flow protoLen state).commu.Closed flow) := by
  rw [recvdataDone]
  split
  · exact Or.inl ⟨rfl, known⟩
  · split
    · exact Or.inl ⟨rfl, known_withConn known rfl⟩
    · exact Or.inr ⟨rfl, closed_closeconn known⟩

/-- A round gives bytes and is followed by another one, or it closes the flow, or there is no
input. -/
theorem pollRecvOnce_cases (known : ¬commu.conns.Unknown flow) {state : γ}
    {input : RecvInput ι} {polled : Polled γ}
    (eq : commu.pollRecvOnce recvdata flow state input = some polled) :
    (polled.again = true ∧ input.outcome.bytes ≠ [] ∧ ¬polled.commu.conns.Unknown flow) ∨
      (polled.again = false ∧ (polled.commu.Closed flow ∨ input.outcome = .failed 11)) := by
  obtain ⟨recving, recv_eq, eq⟩ := Option.bind_eq_some_iff.1 eq
  rw [CConnSet.recv, if_neg known] at recv_eq
  obtain ⟨conn_recving, conn_eq, recv_eq⟩ := Option.bind_eq_some_iff.1 recv_eq
  obtain rfl := Option.some.inj recv_eq
  obtain ⟨flow_eq, cases⟩ := recv_cases conn_eq
  have after := known_withConn known flow_eq
  rcases cases with ⟨some_bytes, positive⟩ | close | ⟨again, ret_eq⟩
  · have eq : (commu.withConn flow conn_recving.conn).callRecvdata recvdata flow state
        input.callback = some polled := (if_pos positive).symm.trans eq
    obtain ⟨bytes, -, eq⟩ := Option.bind_eq_some_iff.1 eq
    obtain ⟨called, -, eq⟩ := Option.bind_eq_some_iff.1 eq
    obtain rfl := Option.some.inj eq
    rcases recvdataDone_cases after called.1 called.2 with ⟨again, known⟩ | ⟨ends, closed⟩
    · exact Or.inl ⟨again, some_bytes, known⟩
    · exact Or.inr ⟨ends, Or.inl closed⟩
  · have not_positive : ¬(conn_recving.ret.getD (-eNeedClose) > 0 ∨
        conn_recving.ret.getD (-eNeedClose) = -eRecvDone) := by
      rw [close]
      decide
    have eq := (if_pos close).symm.trans ((if_neg not_positive).symm.trans eq)
    obtain rfl := Option.some.inj eq
    exact Or.inr ⟨rfl, Or.inl (closed_closeconn after)⟩
  · have not_positive : ¬(conn_recving.ret.getD (-eNeedClose) > 0 ∨
        conn_recving.ret.getD (-eNeedClose) = -eRecvDone) := by
      rw [ret_eq]
      decide
    have not_close : ¬conn_recving.ret.getD (-eNeedClose) = -eNeedClose := by
      rw [ret_eq]
      decide
    have eq := (if_neg not_close).symm.trans ((if_neg not_positive).symm.trans eq)
    obtain rfl := Option.some.inj eq
    exact Or.inr ⟨rfl, Or.inr again⟩

/-- When the flow stays open, the last `recv` has failed with `EAGAIN`, or every round has given
bytes. -/
theorem pollRecvLog_cases (known : ¬commu.conns.Unknown flow) {retry : Nat} {state : γ}
    {inputs : Nat → RecvInput ι} {after : CTSockCommu × γ} {log : List ReceiveOutcome}
    (run : commu.pollRecvLog recvdata flow retry state inputs = some (after, log))
    (opened : ¬after.1.Closed flow) :
    (log.getLast? = some (.failed 11) ∧ ∃ round < retry, (inputs round).outcome.bytes = []) ∨
      ((∀ outcome ∈ log, outcome.bytes ≠ []) ∧
        ∀ round < retry, (inputs round).outcome.bytes ≠ []) := by
  induction retry generalizing commu state inputs log with
  | zero =>
      obtain rfl := (Prod.mk.inj (Option.some.inj run)).2
      exact Or.inr ⟨fun _ member => absurd member List.not_mem_nil, fun _ round_lt =>
        absurd round_lt (Nat.not_lt_zero _)⟩
  | succ retry induction =>
      obtain ⟨polled, once_eq, run⟩ := Option.bind_eq_some_iff.1 run
      rcases pollRecvOnce_cases recvdata known once_eq with
        ⟨again, first_bytes, known⟩ | ⟨ends, why⟩
      · have run := (if_pos again).symm.trans run
        obtain ⟨⟨rest_after, rest⟩, rest_eq, run⟩ := Option.bind_eq_some_iff.1 run
        obtain ⟨rfl, rfl⟩ := Prod.mk.inj (Option.some.inj run)
        rcases induction known rest_eq with ⟨last_eq, round, round_lt, dry⟩ | ⟨all, every⟩
        · refine Or.inl ⟨?_, round + 1, by omega, dry⟩
          rw [List.getLast?_cons, last_eq]
          rfl
        · refine Or.inr ⟨List.forall_mem_cons.2 ⟨first_bytes, all⟩, fun round round_lt => ?_⟩
          cases round with
          | zero => exact first_bytes
          | succ round => exact every round (by omega)
      · have run := (if_neg (Bool.eq_false_iff.1 ends)).symm.trans run
        obtain ⟨rfl, rfl⟩ := Prod.mk.inj (Option.some.inj run)
        have no_input := why.resolve_left opened
        refine Or.inl ⟨congrArg some no_input, 0, by omega, ?_⟩
        rw [no_input]
        rfl

/-- When the flow is still open after the `EPOLLIN` part of `poll`, the last `recv` has failed with
`EAGAIN` if and only if one of the first 50 results is without bytes. -/
theorem pollIn_drained_iff {expiretime now : Nat} (known : ¬commu.conns.Unknown flow) {state : γ}
    {inputs : Nat → RecvInput ι} {after : CTSockCommu × γ} {log : List ReceiveOutcome}
    (run : pollIn recvdata flow expiretime now commu state inputs = some (after, log))
    (opened : ¬after.1.conns.Unknown flow) :
    log.getLast? = some (.failed 11) ↔ ∃ round < 50, (inputs round).outcome.bytes = [] := by
  have not_closed : ¬after.1.Closed flow := fun closed =>
    opened (Or.inl (closed.trans_ne fun zero => opened (Or.inr zero.symm)))
  have loop : commu.pollRecvLog recvdata flow 50 state inputs = some (after, log) := by
    obtain ⟨⟨⟨looped, looped_state⟩, looped_log⟩, loop_eq, run⟩ := Option.bind_eq_some_iff.1 run
    have run : (if expiretime ≠ 0 ∧ looped.conns.checkPerExpire flow (now - expiretime) then
        some ((looped.closeconn flow, looped_state), looped_log)
      else some ((looped, looped_state), looped_log)) = some (after, log) := run
    split at run
    · rename_i expired
      have same_flow : flow = (looped.conns.getcc flow).flow := (of_decide_eq_true expired.2).1
      have looped_known : ¬looped.conns.Unknown flow := by
        rintro (other | zero)
        · exact other same_flow.symm
        · exact known (Or.inr zero)
      obtain ⟨rfl, rfl⟩ := Prod.mk.inj (Option.some.inj run)
      exact absurd (closed_closeconn looped_known) not_closed
    · exact loop_eq.trans run
  rcases pollRecvLog_cases recvdata known loop not_closed with
    ⟨last_eq, dry⟩ | ⟨all, every⟩
  · exact iff_of_true last_eq dry
  · refine iff_of_false (fun last_eq => ?_) ?_
    · exact all _ (List.mem_of_getLast? last_eq) rfl
    · rintro ⟨round, round_lt, dry⟩
      exact every round round_lt dry

/-- `recv` gives a byte in each of the first calls, and the callback takes it. -/
def oneByteEach (calls : Nat) (round : Nat) : RecvInput Unit where
  now := (0, 0)
  outcome := if round < calls then .received [7] else .failed 11
  fresh := some fun _ => 0
  callback := ()

/-- A callback that takes all. -/
def takeAll (_ : Unit) (_ : TConnExtInfo) (bytes : List UInt8) (state : Unit) :
    Option (Int × Unit) :=
  some (bytes.length, state)

theorem pollIn_drained_one : ∃ run, pollIn takeAll 1 0 0 oneFlow () (oneByteEach 1) = some run ∧
    run.2.getLast? = some (.failed 11) := by
  have returns : ((pollIn takeAll 1 0 0 oneFlow () (oneByteEach 1)).map fun run =>
      decide (run.1.1.conns.Unknown 1)) = some false := by
    decide
  obtain ⟨run, run_eq, opened⟩ := Option.map_eq_some_iff.1 returns
  exact ⟨run, run_eq, (pollIn_drained_iff takeAll (by decide) run_eq
    (of_decide_eq_false opened)).2 ⟨1, by decide, rfl⟩⟩

/-- After 50 bytes the flow is open, the last `recv` has given a byte, and the next one is not
read. -/
theorem pollIn_not_drained :
    ((pollIn takeAll 1 0 0 oneFlow () (oneByteEach 51)).map fun run =>
        (decide (run.1.1.conns.Unknown 1), run.2.length, run.2.getLast?.map ReceiveOutcome.bytes)) =
      some (false, 50, some [7]) ∧
    (oneByteEach 51 50).outcome = .received [7] := by
  refine ⟨?_, rfl⟩
  decide

end CTSockCommu

end Spp
