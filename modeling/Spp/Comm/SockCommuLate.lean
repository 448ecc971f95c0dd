import Spp.Comm.SockCommuSend

/-!
# Late responses

A response for a flow that has been closed reaches the slot of this flow, which may belong to
another connection by now.  `sendto` leaves all connections as they are, but for an empty blob,
which asks to close the connection: it sets the fin bit of the slot without a look at the flow.
-/

namespace Spp

namespace CTSockCommu

variable {commu : CTSockCommu} {flow : Nat}

theorem closeconn_unknown (unknown : commu.conns.Unknown flow) : commu.closeconn flow = commu := by
  simp only [closeconn, CConnSet.closeconn, if_pos unknown, if_pos (Or.inl unknown)]

theorem sendtoData_unknown (unknown : commu.conns.Unknown flow) (input : SendtoInput)
    (data : List UInt8) : commu.sendtoData flow input data = some ⟨-eNotFindfd, commu, []⟩ := by
  have done : commu.sendtoDone flow data.length (-eNotFindfd) = some commu := by
    unfold sendtoDone
    rw [if_neg (by decide), if_neg (by decide)]
  simp only [sendtoData, CConnSet.send, if_pos unknown, Option.bind_eq_bind, Option.bind_some,
    Option.getD_some]
  exact Option.bind_eq_some_iff.2 ⟨commu, done, rfl⟩

theorem setFin_eq_iff (commu : CTSockCommu) (flow : Nat) :
    { commu with conns := commu.conns.setcc flow { commu.conns.getcc flow with
      w := { (commu.conns.getcc flow).w with finBit := true } } } = commu ↔
      (commu.conns.getcc flow).w.finBit = true := by
  constructor
  · intro same
    rw [← same]
    show ((commu.conns.setcc flow _).getcc flow).w.finBit = true
    rw [getcc_setcc]
  · intro fin
    have conn_eq : { commu.conns.getcc flow with
        w := { (commu.conns.getcc flow).w with finBit := true } } = commu.conns.getcc flow := by
      rw [← fin]
    rw [conn_eq]
    have conns_eq : commu.conns.setcc flow (commu.conns.getcc flow) = commu.conns := by
      unfold CConnSet.setcc CConnSet.getcc
      rw [Function.update_eq_self]
    rw [conns_eq]

/-- A flow that no slot has. -/
def NotLive (commu : CTSockCommu) (flow : Nat) : Prop :=
  flow = 0 ∨ ∀ slot < commu.conns.maxconn, (commu.conns.ccs slot).flow ≠ flow

theorem NotLive.unknown (late : commu.NotLive flow) (slots : 0 < commu.conns.maxconn) :
    commu.conns.Unknown flow :=
  late.symm.imp_left fun other => other (flow % commu.conns.maxconn) (Nat.mod_lt flow slots)

/-- A late response leaves everything as it is if and only if it has some bytes, or its flow is 0,
or the slot of its flow has an empty write cache or a fin bit already. -/
theorem sendto_late_iff (slots : 0 < commu.conns.maxconn) (late : commu.NotLive flow)
    (input : SendtoInput) (data : List UInt8) :
    (∃ ret, commu.sendto flow input data = some ⟨ret, commu, []⟩) ↔
      data ≠ [] ∨ flow = 0 ∨ ¬0 < i32 (commu.conns.getcc flow).w.dataLen ∨
        (commu.conns.getcc flow).w.finBit = true := by
  have unknown := late.unknown slots
  unfold sendto
  split
  · rename_i closes
    have empty : data = [] := List.length_eq_zero_iff.1 closes.1
    have flow_ne : flow ≠ 0 := Nat.pos_iff_ne_zero.1 closes.2
    have same_iff : (∃ ret, some (SentTo.mk 0 (commu.sendtoClose flow) []) =
        some ⟨ret, commu, []⟩) ↔ commu.sendtoClose flow = commu := by
      simp only [Option.some.injEq, SentTo.mk.injEq, and_true, exists_and_right, exists_eq',
        true_and]
    rw [same_iff, sendtoClose]
    split
    · rename_i flushes
      rw [setFin_eq_iff]
      simp only [empty, ne_eq, not_true_eq_false, flow_ne, flushes, false_or]
    · rename_i flushed
      exact iff_of_true (closeconn_unknown unknown) (Or.inr (Or.inr (Or.inl flushed)))
  · rename_i passes
    refine iff_of_true ?_ ?_
    · split
      · rw [closeconn_unknown unknown]
        exact ⟨0, rfl⟩
      · exact ⟨_, sendtoData_unknown unknown input data⟩
    · by_cases empty : data = []
      · rw [empty] at passes
        exact Or.inr (Or.inl (by simpa using passes))
      · exact Or.inl empty

/-! ## Runs and samples -/

/-- What happens to the connections. -/
inductive SockEvent where
  | accept (fd : Nat) (now : Nat × Nat)
  /-- A connection is closed by its peer, by an error or because it is idle. -/
  | close (flow : Nat)
  | sendto (flow : Nat) (input : SendtoInput) (data : List UInt8)
  | output (fd flow : Nat) (now : Nat × Nat) (outcome : SocketOutcome)

/-- The connections after an event. -/
def SockEvent.perform (commu : CTSockCommu) : SockEvent → Option CTSockCommu
  | .accept fd now => some (commu.accept fd now)
  | .close flow => some (commu.closeconn flow)
  | .sendto flow input data => (commu.sendto flow input data).map SentTo.commu
  | .output fd flow now outcome => (commu.output fd flow now outcome).map SentTo.commu

/-- Runs from a table without connections. -/
def SockReaches (maxconn : Nat) (commu : CTSockCommu) : Prop :=
  Relation.ReflTransGen (fun before after : CTSockCommu => ∃ event : SockEvent,
    event.perform before = some after) (start maxconn) commu

/-- Flow 1 has been closed, and flow 2 has its slot. -/
def secondFlow : CTSockCommu := (((start 1).accept 3 (0, 0)).closeconn 1).accept 4 (1, 0)

/-- A response for flow 2 that the socket does not accept. -/
def secondSent : SentTo := (secondFlow.sendto 2 nothing [9]).get (by decide)

/-- There is a byte in the write cache of flow 2. -/
def recycled : CTSockCommu := secondSent.commu

theorem sockReaches_recycled : SockReaches 1 recycled := by
  have accepted : SockReaches 1 ((start 1).accept 3 (0, 0)) :=
    Relation.ReflTransGen.single ⟨.accept 3 (0, 0), rfl⟩
  have second : SockReaches 1 secondFlow :=
    (accepted.tail ⟨.close 1, rfl⟩).tail ⟨.accept 4 (1, 0), rfl⟩
  have sent_eq : secondFlow.sendto 2 nothing [9] = some secondSent := (Option.some_get _).symm
  exact second.tail ⟨.sendto 2 nothing [9], by rw [SockEvent.perform, sent_eq]; rfl⟩

theorem notLive_recycled : recycled.NotLive 1 := by
  refine Or.inr ?_
  decide

theorem sendto_late_iff_sample : recycled.NotLive 1 ∧
    ∃ ret, recycled.sendto 1 nothing [5] = some ⟨ret, recycled, []⟩ :=
  ⟨notLive_recycled, (sendto_late_iff (by decide) notLive_recycled nothing [5]).2
    (Or.inl (by decide))⟩

/-- An empty late response for flow 1 sets the fin bit of flow 2. -/
theorem sockReaches_fin : SockReaches 1 recycled ∧ recycled.NotLive 1 ∧
    (recycled.conns.getcc 1).flow = 2 ∧ (recycled.conns.getcc 2).w.finBit = false ∧
    ∃ after, recycled.sendto 1 nothing [] = some ⟨0, after, []⟩ ∧
      (after.conns.getcc 2).w.finBit = true :=
  ⟨sockReaches_recycled, notLive_recycled, by decide, by decide,
    recycled.sendtoClose 1, rfl, by decide⟩

end CTSockCommu

end Spp
