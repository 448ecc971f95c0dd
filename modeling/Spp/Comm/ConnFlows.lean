import Spp.Comm.SockCommu

/-!
# The flow numbers of the connections

A connection stands in the slot that its flow number gives modulo the number of slots.  `addconn`
looks for a free slot by trying one flow number after the other, as many as there are slots.

The flow numbers go from 1 to 2147483646, so a search that passes the last one meets every slot
only if the number of slots divides 2147483646.
-/

namespace Spp

namespace CConnSet

variable {conns : CConnSet}

/-- A slot is in use. -/
def Used (conns : CConnSet) (slot : Nat) : Prop := (conns.ccs slot).flow ≠ 0

instance (conns : CConnSet) : DecidablePred conns.Used :=
  fun slot => inferInstanceAs (Decidable ((conns.ccs slot).flow ≠ 0))

/-- All slots in use. -/
def usedSlots (conns : CConnSet) : Finset Nat :=
  {slot ∈ Finset.range conns.maxconn | conns.Used slot}

/-- All slots are in use. -/
def Full (conns : CConnSet) : Prop := ∀ slot < conns.maxconn, conns.Used slot

/-- The flow of a used slot belongs to it, and the used slots are counted. -/
structure FlowsFit (conns : CConnSet) : Prop where
  placed : ∀ slot < conns.maxconn, conns.Used slot → (conns.ccs slot).flow % conns.maxconn = slot
  usedflow_eq : conns.usedflow = conns.usedSlots.card

/-! ## The search for a free slot -/

/-- The flow number after some others, of which there are `maxFlowNum - 1`. -/
def flowAfter (flow count : Nat) : Nat := (flow - 1 + count) % (maxFlowNum - 1) + 1

variable {flow : Nat}

theorem flowAfter_pos (flow count : Nat) : 0 < flowAfter flow count := Nat.succ_pos _

theorem flowAfter_lt (flow count : Nat) : flowAfter flow count < maxFlowNum := by
  unfold flowAfter maxFlowNum
  omega

theorem flowAfter_zero (positive : 0 < flow) (small : flow < maxFlowNum) :
    flowAfter flow 0 = flow := by
  unfold maxFlowNum at small
  unfold flowAfter maxFlowNum
  omega

theorem nextFlow_eq (positive : 0 < flow) (small : flow < maxFlowNum) :
    nextFlow flow = flowAfter flow 1 := by
  have next_lt : u32 ((flow : Int) + 1) = flow + 1 := by
    unfold maxFlowNum at small
    unfold u32
    omega
  simp only [nextFlow, next_lt]
  unfold maxFlowNum at small
  unfold flowAfter maxFlowNum
  split
  · omega
  · omega

theorem flowAfter_flowAfter (flow first second : Nat) :
    flowAfter (flowAfter flow first) second = flowAfter flow (first + second) := by
  simp only [flowAfter, Nat.add_sub_cancel, Nat.mod_add_mod, Nat.add_assoc]

theorem findFree_false {rounds : Nat} (positive : 0 < flow) (small : flow < maxFlowNum)
    (failed : (conns.findFree rounds flow).1 = false) :
    (conns.findFree rounds flow).2 = flowAfter flow rounds ∧
      ∀ count ≤ rounds, 0 < count → (conns.getcc (flowAfter flow count)).flow ≠ 0 := by
  induction rounds generalizing flow with
  | zero => exact ⟨(flowAfter_zero positive small).symm, fun count inside tried => by omega⟩
  | succ rounds induction =>
      rw [findFree, nextFlow_eq positive small] at failed ⊢
      split at failed
      · cases failed
      · rename_i used
        rw [if_neg used]
        obtain ⟨flow_eq, later⟩ := induction (flowAfter_pos flow 1) (flowAfter_lt flow 1) failed
        rw [flowAfter_flowAfter, Nat.add_comm 1 rounds] at flow_eq
        refine ⟨flow_eq, fun count inside tried => ?_⟩
        obtain ⟨count, rfl⟩ := Nat.exists_eq_succ_of_ne_zero (Nat.ne_of_gt tried)
        rcases Nat.eq_zero_or_pos count with rfl | behind
        · exact used
        · have used_later := later count (Nat.le_of_succ_le_succ inside) behind
          rwa [flowAfter_flowAfter, Nat.add_comm 1 count] at used_later

theorem findFree_true {rounds : Nat} (positive : 0 < flow) (small : flow < maxFlowNum)
    (found : (conns.findFree rounds flow).1 = true) :
    ∃ count ≤ rounds, (conns.findFree rounds flow).2 = flowAfter flow count ∧
      (conns.getcc (flowAfter flow count)).flow = 0 ∧
      ∀ earlier < count, 0 < earlier → (conns.getcc (flowAfter flow earlier)).flow ≠ 0 := by
  induction rounds generalizing flow with
  | zero => cases found
  | succ rounds induction =>
      rw [findFree, nextFlow_eq positive small] at found ⊢
      split
      · rename_i free
        exact ⟨1, Nat.succ_pos rounds, rfl, free, fun earlier before tried => by omega⟩
      · rename_i used
        rw [if_neg used] at found
        obtain ⟨count, inside, flow_eq, free, first⟩ :=
          induction (flowAfter_pos flow 1) (flowAfter_lt flow 1) found
        simp only [flowAfter_flowAfter, Nat.add_comm 1] at flow_eq free first
        refine ⟨count + 1, Nat.succ_le_succ inside, flow_eq, free, fun earlier before tried => ?_⟩
        obtain ⟨earlier, rfl⟩ := Nat.exists_eq_succ_of_ne_zero (Nat.ne_of_gt tried)
        rcases Nat.eq_zero_or_pos earlier with rfl | behind
        · exact used
        · exact first earlier (Nat.lt_of_succ_lt_succ before) behind

/-- `addconn` takes the first free slot, or all slots that it meets are used. -/
theorem addconn_cases (positive_conns : 0 < conns.maxconn) (positive : 0 < flow)
    (small : flow < maxFlowNum) (fd type : Nat) (now : Nat × Nat) :
    (∃ count < conns.maxconn, (conns.getcc (flowAfter flow count)).flow = 0 ∧
        (∀ earlier < count, (conns.getcc (flowAfter flow earlier)).flow ≠ 0) ∧
        conns.addconn flow fd type now =
          (0, flowAfter flow count, conns.occupy (flowAfter flow count) fd type now)) ∨
      (∀ count < conns.maxconn, (conns.getcc (flowAfter flow count)).flow ≠ 0) ∧
        conns.addconn flow fd type now = (-1, flowAfter flow (conns.maxconn - 1), conns) := by
  have first_eq := flowAfter_zero positive small
  rcases Nat.eq_zero_or_pos (conns.getcc flow).flow with free | used
  · refine Or.inl ⟨0, positive_conns, first_eq.symm ▸ free,
      fun earlier before => absurd before (Nat.not_lt_zero _), ?_⟩
    rw [addconn, free, if_neg (lt_irrefl 0), first_eq]
  · have first_used : (conns.getcc (flowAfter flow 0)).flow ≠ 0 := by
      rw [first_eq]
      exact Nat.ne_of_gt used
    rw [addconn, if_pos used]
    cases searched : (conns.findFree (conns.maxconn - 1) flow).1 with
    | true =>
        obtain ⟨count, inside, flow_eq, free, first⟩ := findFree_true positive small searched
        refine Or.inl ⟨count, by omega, free, fun earlier before => ?_, ?_⟩
        · rcases Nat.eq_zero_or_pos earlier with rfl | tried
          · exact first_used
          · exact first earlier before tried
        · simp only [searched, flow_eq, if_true]
    | false =>
        obtain ⟨flow_eq, later⟩ := findFree_false positive small searched
        refine Or.inr ⟨fun count inside => ?_, ?_⟩
        · rcases Nat.eq_zero_or_pos count with rfl | tried
          · exact first_used
          · exact later count (by omega) tried
        · simp only [searched, flow_eq, Bool.false_eq_true, if_false]

/-! ## The slots after a call -/

theorem mem_usedSlots {slot : Nat} :
    slot ∈ conns.usedSlots ↔ slot < conns.maxconn ∧ (conns.ccs slot).flow ≠ 0 := by
  rw [usedSlots, Finset.mem_filter, Finset.mem_range]
  rfl

theorem usedSlots_setcc (positive_conns : 0 < conns.maxconn) (conn : ConnCache) (usedflow : Int) :
    usedSlots { conns.setcc flow conn with usedflow } =
      if conn.flow = 0 then conns.usedSlots.erase (flow % conns.maxconn)
      else insert (flow % conns.maxconn) conns.usedSlots := by
  have inside := Nat.mod_lt flow positive_conns
  ext slot
  by_cases same : slot = flow % conns.maxconn
  · by_cases free : conn.flow = 0 <;> simp [mem_usedSlots, setcc, free, inside, same]
  · by_cases free : conn.flow = 0 <;> simp [mem_usedSlots, setcc, free, same]

theorem getcc_flow_ne_iff (positive_conns : 0 < conns.maxconn) (flow : Nat) :
    (conns.getcc flow).flow ≠ 0 ↔ flow % conns.maxconn ∈ conns.usedSlots := by
  rw [mem_usedSlots]
  exact ⟨fun used => ⟨Nat.mod_lt flow positive_conns, used⟩, And.right⟩

theorem usedSlots_occupy (positive_conns : 0 < conns.maxconn) (positive : 0 < flow) (fd type : Nat)
    (now : Nat × Nat) :
    (conns.occupy flow fd type now).usedSlots =
      insert (flow % conns.maxconn) conns.usedSlots := by
  rw [CConnSet.occupy, usedSlots_setcc positive_conns, if_neg (Nat.ne_of_gt positive)]

theorem slot_notMem (positive_conns : 0 < conns.maxconn) (free : (conns.getcc flow).flow = 0) :
    flow % conns.maxconn ∉ conns.usedSlots := fun member =>
  (getcc_flow_ne_iff positive_conns flow).2 member free

theorem FlowsFit.occupy (fit : conns.FlowsFit) (positive_conns : 0 < conns.maxconn)
    (positive : 0 < flow) (free : (conns.getcc flow).flow = 0) (fd type : Nat) (now : Nat × Nat) :
    (conns.occupy flow fd type now).FlowsFit where
  placed := by
    intro slot inside used
    by_cases same : slot = flow % conns.maxconn
    · subst same
      simp [CConnSet.occupy, setcc]
    · have used : conns.Used slot := by
        simpa [CConnSet.occupy, setcc, Used, same] using used
      simpa [CConnSet.occupy, setcc, same] using fit.placed slot inside used
  usedflow_eq := by
    rw [usedSlots_occupy positive_conns positive,
      Finset.card_insert_of_notMem (slot_notMem positive_conns free), CConnSet.occupy,
      fit.usedflow_eq]
    rfl

/-- A connection that comes and goes leaves the used slots as they were. -/
theorem usedSlots_closeconn_occupy (positive_conns : 0 < conns.maxconn) (positive : 0 < flow)
    (free : (conns.getcc flow).flow = 0) (fd type : Nat) (now : Nat × Nat) :
    ((conns.occupy flow fd type now).closeconn flow).usedSlots = conns.usedSlots := by
  have known : ¬(conns.occupy flow fd type now).Unknown flow := by
    rintro (other | zero)
    · exact other (by simp [CConnSet.occupy, setcc, getcc])
    · exact Nat.ne_of_gt positive zero
  have closed : ((conns.occupy flow fd type now).getcc flow).close.flow = 0 := rfl
  have occupied : 0 < (conns.occupy flow fd type now).maxconn := positive_conns
  rw [CConnSet.closeconn, if_neg known, usedSlots_setcc occupied, if_pos closed,
    usedSlots_occupy positive_conns positive]
  exact Finset.erase_insert (slot_notMem positive_conns free)

theorem FlowsFit.closeconn (fit : conns.FlowsFit) (positive_conns : 0 < conns.maxconn)
    (flow : Nat) : (conns.closeconn flow).FlowsFit := by
  rw [CConnSet.closeconn]
  split
  · exact fit
  · rename_i known
    rw [Unknown, not_or, not_not] at known
    have member := (getcc_flow_ne_iff positive_conns flow).1 (known.1.trans_ne known.2)
    constructor
    · intro slot inside used
      by_cases same : slot = flow % conns.maxconn
      · simp [setcc, Used, same, ConnCache.close] at used
      · have used : conns.Used slot := by simpa [setcc, Used, same] using used
        simpa [setcc, same] using fit.placed slot inside used
    · have positive := Finset.card_pos.2 ⟨_, member⟩
      have free : (conns.getcc flow).close.flow = 0 := rfl
      rw [usedSlots_setcc positive_conns, if_pos free, Finset.card_erase_of_mem member,
        Nat.cast_sub positive, ← fit.usedflow_eq]
      rfl

end CConnSet

/-! ## Calls one after the other -/

/-- The table, and the last flow. -/
structure ConnTable where
  conns : CConnSet
  flow : Nat

/-- The calls that change the table. -/
inductive TableCall where
  /-- `addconn`, as the acceptance of a connection calls it. -/
  | addconn (fd type : Nat) (now : Nat × Nat)
  | closeconn (flow : Nat)

namespace ConnTable

open CConnSet

/-- `addconn` -/
def addconn (table : ConnTable) (fd type : Nat) (now : Nat × Nat) : Int × Nat × CConnSet :=
  table.conns.addconn (CTSockCommu.countFlow table.flow) fd type now

/-- The table after a call. -/
def perform (table : ConnTable) : TableCall → ConnTable
  | .addconn fd type now => ⟨(table.addconn fd type now).2.2, (table.addconn fd type now).2.1⟩
  | .closeconn flow => ⟨table.conns.closeconn flow, table.flow⟩

/-- No connection yet. -/
structure Initial (maxconn : Nat) (table : ConnTable) : Prop where
  maxconn_eq : table.conns.maxconn = maxconn
  free : ∀ slot, (table.conns.ccs slot).flow = 0
  usedflow_eq : table.conns.usedflow = 0
  flow_eq : table.flow = 0

/-- Each flow is in its slot, and the counter is right. -/
structure Sound (maxconn : Nat) (table : ConnTable) : Prop where
  maxconn_eq : table.conns.maxconn = maxconn
  fit : table.conns.FlowsFit
  flow_lt : table.flow < maxFlowNum

variable {maxconn : Nat} {table start : ConnTable} {flow last count : Nat}

theorem countFlow_eq (small : flow < maxFlowNum) :
    CTSockCommu.countFlow flow = if flow + 1 < maxFlowNum then flow + 1 else 1 := by
  have next_eq : u32 ((flow : Int) + 1) = flow + 1 := by
    unfold maxFlowNum at small
    unfold u32
    omega
  simp only [CTSockCommu.countFlow, next_eq]
  split
  · rw [if_neg (by omega)]
  · rw [if_pos (by omega)]

theorem Sound.countFlow (sound : Sound maxconn table) :
    0 < CTSockCommu.countFlow table.flow ∧ CTSockCommu.countFlow table.flow < maxFlowNum := by
  rw [countFlow_eq sound.flow_lt]
  split
  · omega
  · decide

theorem Initial.usedSlots_eq (initial : Initial maxconn start) : start.conns.usedSlots = ∅ :=
  Finset.eq_empty_of_forall_notMem fun slot member =>
    (mem_usedSlots.1 member).2 (initial.free slot)

theorem Initial.sound (initial : Initial maxconn start) : Sound maxconn start where
  maxconn_eq := initial.maxconn_eq
  fit :=
    { placed := fun slot _ used => absurd (initial.free slot) used
      usedflow_eq := by
        rw [initial.usedflow_eq, initial.usedSlots_eq]
        rfl }
  flow_lt := by
    rw [initial.flow_eq]
    decide

theorem Sound.perform (sound : Sound maxconn table) (positive : 0 < maxconn) (call : TableCall) :
    Sound maxconn (table.perform call) := by
  have positive_conns : 0 < table.conns.maxconn := sound.maxconn_eq ▸ positive
  cases call with
  | closeconn flow =>
      refine ⟨?_, sound.fit.closeconn positive_conns flow, sound.flow_lt⟩
      show (table.conns.closeconn flow).maxconn = maxconn
      rw [CConnSet.closeconn]
      split
      · exact sound.maxconn_eq
      · exact sound.maxconn_eq
  | addconn fd type now =>
      obtain ⟨flow_pos, flow_lt⟩ := sound.countFlow
      rw [ConnTable.perform, ConnTable.addconn]
      obtain ⟨count, -, free, -, added⟩ | ⟨-, added⟩ :=
        addconn_cases positive_conns flow_pos flow_lt fd type now
      · rw [added]
        exact ⟨sound.maxconn_eq,
          sound.fit.occupy positive_conns (flowAfter_pos _ _) free fd type now,
          flowAfter_lt _ _⟩
      · rw [added]
        exact ⟨sound.maxconn_eq, sound.fit, flowAfter_lt _ _⟩

theorem Sound.foldl (sound : Sound maxconn table) (positive : 0 < maxconn)
    (calls : List TableCall) : Sound maxconn (calls.foldl ConnTable.perform table) := by
  induction calls generalizing table with
  | nil => exact sound
  | cons call calls induction => exact induction (sound.perform positive call)

/-- If the number of slots divides the number of flow numbers, the search meets every slot. -/
theorem flowAfter_covers (positive : 0 < maxconn) (divides : maxconn ∣ maxFlowNum - 1)
    (flow_pos : 0 < flow) {slot : Nat} (inside : slot < maxconn) :
    ∃ count < maxconn, flowAfter flow count % maxconn = slot := by
  refine ⟨(slot + (maxconn - flow % maxconn)) % maxconn, Nat.mod_lt _ positive, ?_⟩
  have part := Nat.mod_lt flow positive
  have whole := Nat.div_add_mod flow maxconn
  calc flowAfter flow ((slot + (maxconn - flow % maxconn)) % maxconn) % maxconn
      = (flow - 1 + (slot + (maxconn - flow % maxconn)) % maxconn + 1) % maxconn := by
        rw [flowAfter, Nat.add_mod, Nat.mod_mod_of_dvd _ divides, ← Nat.add_mod]
    _ = (flow + (slot + (maxconn - flow % maxconn))) % maxconn := by
        have shift : flow - 1 + (slot + (maxconn - flow % maxconn)) % maxconn + 1 =
            flow + (slot + (maxconn - flow % maxconn)) % maxconn := by omega
        rw [shift, Nat.add_mod_mod]
    _ = (slot + maxconn * (flow / maxconn + 1)) % maxconn := by
        rw [Nat.mul_add]
        congr 1
        omega
    _ = slot := by rw [Nat.add_mul_mod_self_left, Nat.mod_eq_of_lt inside]

theorem Sound.full_of_refused (sound : Sound maxconn table) (positive : 0 < maxconn)
    (divides : maxconn ∣ maxFlowNum - 1) {fd type : Nat} {now : Nat × Nat}
    (refused : (table.addconn fd type now).1 = -1) : table.conns.Full := by
  have positive_conns : 0 < table.conns.maxconn := sound.maxconn_eq ▸ positive
  obtain ⟨flow_pos, flow_lt⟩ := sound.countFlow
  obtain ⟨count, -, -, -, added⟩ | ⟨used, -⟩ :=
    addconn_cases positive_conns flow_pos flow_lt fd type now
  · rw [ConnTable.addconn, added] at refused
    cases refused
  · intro slot inside
    rw [← sound.maxconn_eq] at divides
    obtain ⟨count, tried, rfl⟩ := flowAfter_covers positive_conns divides flow_pos inside
    exact used count tried

/-! ## Refused connections -/

/-- The slots from 1 to `last` are used. -/
structure Filled (maxconn last : Nat) (table : ConnTable) : Prop extends Sound maxconn table where
  usedSlots_eq : table.conns.usedSlots = Finset.Icc 1 last

theorem Filled.addconn (filled : Filled maxconn last table) (flow_eq : table.flow = last)
    (inside : last + 1 < maxconn) (int_range : maxconn ≤ maxFlowNum) :
    Filled maxconn (last + 1) (table.perform (.addconn 0 0 (0, 0))) ∧
      (table.perform (.addconn 0 0 (0, 0))).flow = last + 1 := by
  have positive_conns : 0 < table.conns.maxconn := filled.maxconn_eq ▸ Nat.zero_lt_of_lt inside
  have count_eq : CTSockCommu.countFlow table.flow = last + 1 := by
    rw [countFlow_eq filled.flow_lt, flow_eq, if_pos (by omega)]
  have slot_eq : (last + 1) % table.conns.maxconn = last + 1 := by
    rw [filled.maxconn_eq, Nat.mod_eq_of_lt inside]
  have free : (table.conns.getcc (last + 1)).flow = 0 := by
    by_contra used
    have member := (getcc_flow_ne_iff positive_conns _).1 used
    rw [slot_eq, filled.usedSlots_eq, Finset.mem_Icc] at member
    omega
  have added : table.perform (.addconn 0 0 (0, 0)) =
      ⟨table.conns.occupy (last + 1) 0 0 (0, 0), last + 1⟩ := by
    rw [ConnTable.perform, ConnTable.addconn, count_eq, CConnSet.addconn, free,
      if_neg (lt_irrefl 0)]
  have sound := filled.toSound.perform (Nat.zero_lt_of_lt inside) (.addconn 0 0 (0, 0))
  rw [added] at sound ⊢
  refine ⟨⟨sound, ?_⟩, rfl⟩
  rw [usedSlots_occupy positive_conns (Nat.succ_pos last), slot_eq, filled.usedSlots_eq]
  ext slot
  simp only [Finset.mem_insert, Finset.mem_Icc]
  omega

theorem Initial.fill (initial : Initial maxconn start) (int_range : maxconn ≤ maxFlowNum)
    (inside : last < maxconn) :
    ∃ calls : List TableCall, Filled maxconn last (calls.foldl ConnTable.perform start) ∧
      (calls.foldl ConnTable.perform start).flow = last := by
  induction last with
  | zero =>
      exact ⟨[], ⟨initial.sound, initial.usedSlots_eq⟩, initial.flow_eq⟩
  | succ last induction =>
      obtain ⟨calls, filled, flow_eq⟩ := induction (Nat.lt_of_succ_lt inside)
      refine ⟨calls ++ [.addconn 0 0 (0, 0)], ?_⟩
      rw [List.foldl_append]
      exact filled.addconn flow_eq inside int_range

theorem flowAfter_eq (positive : 0 < flow) (small : flow + count < maxFlowNum) :
    flowAfter flow count = flow + count := by
  rw [flowAfter, Nat.mod_eq_of_lt (by omega)]
  omega

theorem Filled.free_iff (filled : Filled maxconn (maxconn - 1) table) (positive : 0 < maxconn)
    (flow : Nat) : (table.conns.getcc flow).flow = 0 ↔ flow % maxconn = 0 := by
  have part := Nat.mod_lt flow positive
  have used_iff := getcc_flow_ne_iff (filled.maxconn_eq ▸ positive) flow
  rw [filled.maxconn_eq, filled.usedSlots_eq, Finset.mem_Icc] at used_iff
  omega

/-- With slot 0 free, the next connection gets the next multiple of the number of slots; it is
closed again. -/
theorem Filled.round (filled : Filled maxconn (maxconn - 1) table) (positive : 0 < maxconn)
    (flow_eq : table.flow = flow) (small : (flow / maxconn + 1) * maxconn < maxFlowNum) :
    ∃ calls : List TableCall, Filled maxconn (maxconn - 1) (calls.foldl ConnTable.perform table) ∧
      (calls.foldl ConnTable.perform table).flow = (flow / maxconn + 1) * maxconn := by
  obtain ⟨next, next_eq⟩ : ∃ next, next = (flow / maxconn + 1) * maxconn := ⟨_, rfl⟩
  rw [← next_eq] at small ⊢
  have positive_conns : 0 < table.conns.maxconn := filled.maxconn_eq ▸ positive
  have part := Nat.mod_lt flow positive
  have whole := Nat.div_add_mod flow maxconn
  have next_sum : next = flow + (maxconn - flow % maxconn) := by
    rw [next_eq, Nat.add_mul, Nat.mul_comm (flow / maxconn)]
    omega
  have next_free : (table.conns.getcc next).flow = 0 := by
    rw [filled.free_iff positive, next_eq, Nat.mul_mod_left]
  have count_eq : CTSockCommu.countFlow table.flow = flow + 1 := by
    rw [countFlow_eq filled.flow_lt, flow_eq, if_pos (by omega)]
  have after_eq : ∀ count ≤ maxconn - flow % maxconn - 1,
      flowAfter (flow + 1) count = flow + 1 + count := fun count inside =>
    flowAfter_eq (Nat.succ_pos flow) (by omega)
  have reached : flowAfter (flow + 1) (maxconn - flow % maxconn - 1) = next := by
    rw [after_eq _ (le_refl _)]
    omega
  have added : table.perform (.addconn 0 0 (0, 0)) =
      ⟨table.conns.occupy next 0 0 (0, 0), next⟩ := by
    rw [ConnTable.perform, ConnTable.addconn, count_eq]
    obtain ⟨count, -, free, first, added⟩ | ⟨used, -⟩ := addconn_cases positive_conns
      (Nat.succ_pos flow) (by omega : flow + 1 < maxFlowNum) 0 0 (0, 0)
    · have not_later : count ≤ maxconn - flow % maxconn - 1 := by
        by_contra later
        exact first _ (Nat.lt_of_not_le later) (reached ▸ next_free)
      have not_earlier : ¬count < maxconn - flow % maxconn - 1 := by
        intro earlier
        rw [after_eq count not_later, filled.free_iff positive, Nat.add_assoc,
          ← Nat.mod_add_mod, Nat.mod_eq_of_lt (by omega)] at free
        omega
      have count_last : count = maxconn - flow % maxconn - 1 := by omega
      rw [added, count_last, reached]
    · exact absurd (reached ▸ next_free) (used _ (by rw [filled.maxconn_eq]; omega))
  refine ⟨[.addconn 0 0 (0, 0), .closeconn next], ⟨filled.toSound.foldl positive _, ?_⟩, ?_⟩
  · rw [List.foldl_cons, added]
    exact (usedSlots_closeconn_occupy positive_conns (by omega) next_free 0 0 (0, 0)).trans
      filled.usedSlots_eq
  · rw [List.foldl_cons, added]
    rfl

/-- Connections come and go in slot 0, one in each turn of the flow numbers. -/
theorem Filled.rounds (filled : Filled maxconn (maxconn - 1) table) (positive : 0 < maxconn)
    (flow_eq : table.flow = maxconn - 1) (turn : Nat)
    (small : turn * maxconn + maxconn < maxFlowNum) : ∃ calls : List TableCall,
      Filled maxconn (maxconn - 1) (calls.foldl ConnTable.perform table) ∧
        (calls.foldl ConnTable.perform table).flow = turn * maxconn + maxconn := by
  induction turn with
  | zero =>
      have first_eq : (maxconn - 1) / maxconn = 0 :=
        Nat.div_eq_of_lt (Nat.sub_one_lt_of_lt positive)
      obtain ⟨calls, again, again_eq⟩ := filled.round positive flow_eq (by
        rw [first_eq]
        omega)
      rw [first_eq] at again_eq
      exact ⟨calls, again, by omega⟩
  | succ turn induction =>
      rw [Nat.add_mul] at small
      obtain ⟨calls, filled, flow_eq⟩ := induction (by omega)
      have turn_eq : (turn * maxconn + maxconn) / maxconn = turn + 1 := by
        rw [← Nat.succ_mul, Nat.mul_div_cancel _ positive]
      obtain ⟨more, again, again_eq⟩ := filled.round positive flow_eq (by
        rw [turn_eq, Nat.add_mul, Nat.add_mul]
        omega)
      refine ⟨calls ++ more, ?_⟩
      rw [List.foldl_append, again_eq, turn_eq]
      exact ⟨again, Nat.succ_mul ..⟩

/-- If the search meets no flow number of slot 0, a connection is refused although slot 0 is
free. -/
theorem Filled.refused (filled : Filled maxconn (maxconn - 1) table) (positive : 0 < maxconn)
    (missed : ∀ count < maxconn,
      flowAfter (CTSockCommu.countFlow table.flow) count % maxconn ≠ 0) (fd type : Nat)
    (now : Nat × Nat) : (table.addconn fd type now).1 = -1 ∧ ¬table.conns.Full := by
  have positive_conns : 0 < table.conns.maxconn := filled.maxconn_eq ▸ positive
  obtain ⟨flow_pos, flow_lt⟩ := filled.toSound.countFlow
  refine ⟨?_, fun full => ?_⟩
  · obtain ⟨count, tried, free, -, -⟩ | ⟨-, added⟩ :=
      addconn_cases positive_conns flow_pos flow_lt fd type now
    · rw [filled.maxconn_eq] at tried
      exact absurd ((filled.free_iff positive _).1 free) (missed count tried)
    · rw [ConnTable.addconn, added]
  · have free := (filled.free_iff positive 0).2 (Nat.zero_mod _)
    rw [getcc, Nat.zero_mod] at free
    exact full 0 positive_conns free

/-- A search from behind the last multiple of the number of slots meets no multiple of it. -/
theorem flowAfter_missed {turn : Nat} (fewer : maxconn < maxFlowNum)
    (last : maxconn * turn < maxFlowNum - 1) (behind : maxFlowNum - 1 < maxconn * turn + maxconn)
    (inside : count < maxconn) : flowAfter (maxconn * turn + 1) count % maxconn ≠ 0 := by
  rw [flowAfter, Nat.add_sub_cancel]
  rcases Nat.lt_or_ge (maxconn * turn + count) (maxFlowNum - 1) with before | after
  · rw [Nat.mod_eq_of_lt before, Nat.add_assoc, Nat.mul_add_mod, Nat.mod_eq_of_lt (by omega)]
    exact Nat.succ_ne_zero count
  · have wrapped : maxconn * turn + count - (maxFlowNum - 1) < maxFlowNum - 1 := by omega
    rw [Nat.mod_eq_sub_mod after, Nat.mod_eq_of_lt wrapped, Nat.mod_eq_of_lt (by omega)]
    exact Nat.succ_ne_zero _

/-- If the number of slots does not divide the number of flow numbers, a connection is refused after
some calls although slot 0 is free. -/
theorem Initial.exists_refused (initial : Initial maxconn start) (positive : 0 < maxconn)
    (int_range : maxconn ≤ maxFlowNum) (rest : ¬maxconn ∣ maxFlowNum - 1) :
    ∃ calls : List TableCall, ∀ fd type now,
      ((calls.foldl perform start).addconn fd type now).1 = -1 ∧
        ¬(calls.foldl perform start).conns.Full := by
  obtain ⟨calls, filled, flow_eq⟩ := initial.fill int_range (Nat.sub_one_lt_of_lt positive)
  rcases Nat.eq_or_lt_of_le int_range with rfl | fewer
  · -- no flow number is a multiple of the number of slots
    refine ⟨calls, filled.refused positive fun count _ => ?_⟩
    rw [Nat.mod_eq_of_lt (flowAfter_lt _ count)]
    exact Nat.ne_of_gt (flowAfter_pos _ count)
  · obtain ⟨turn, turn_eq⟩ : ∃ turn, (maxFlowNum - 1) / maxconn = turn + 1 :=
      Nat.exists_eq_succ_of_ne_zero
        (Nat.ne_of_gt (Nat.div_pos (Nat.le_sub_one_of_lt fewer) positive))
    have last_eq : turn * maxconn + maxconn = maxconn * ((maxFlowNum - 1) / maxconn) := by
      rw [turn_eq, ← Nat.succ_mul, Nat.mul_comm]
    have whole := Nat.div_add_mod (maxFlowNum - 1) maxconn
    have part := Nat.mod_lt (maxFlowNum - 1) positive
    have part_pos := Nat.pos_of_ne_zero fun zero => rest (Nat.dvd_of_mod_eq_zero zero)
    obtain ⟨more, last_filled, last_flow⟩ := filled.rounds positive flow_eq turn (by omega)
    refine ⟨calls ++ more, ?_⟩
    rw [List.foldl_append]
    refine last_filled.refused positive ?_
    rw [countFlow_eq last_filled.flow_lt, last_flow, last_eq, if_pos (by omega)]
    exact fun count => flowAfter_missed fewer (by omega) (by omega)

/-- The flow numbers belong to the slots and are counted after any calls, and a connection is
refused only if all slots are used: this holds exactly if the number of slots divides the number of
flow numbers. -/
theorem foldl_perform_flowsFit_iff (positive : 0 < maxconn) (int_range : maxconn < 2147483648)
    (initial : Initial maxconn start) :
    (∀ calls : List TableCall, (calls.foldl perform start).conns.FlowsFit ∧
        ∀ fd type now, ((calls.foldl perform start).addconn fd type now).1 = -1 →
          (calls.foldl perform start).conns.Full) ↔
      maxconn ∣ maxFlowNum - 1 := by
  constructor
  · intro holds
    by_contra rest
    obtain ⟨calls, refused⟩ :=
      initial.exists_refused positive (Nat.le_of_lt_succ int_range) rest
    obtain ⟨ret_eq, not_full⟩ := refused 0 0 (0, 0)
    exact not_full ((holds calls).2 0 0 (0, 0) ret_eq)
  · intro divides calls
    have sound := initial.sound.foldl positive calls
    exact ⟨sound.fit, fun fd type now refused => sound.full_of_refused positive divides refused⟩

/-- An empty table. -/
def fresh (maxconn : Nat) : ConnTable :=
  ⟨⟨fun _ => ⟨0, 0, (0, 0), 0, ⟨0, 0, 0, 0, 0, 0, 0, 0⟩, .init, .init⟩, maxconn, 0⟩, 0⟩

theorem initial_fresh (maxconn : Nat) : Initial maxconn (fresh maxconn) :=
  ⟨rfl, fun _ => rfl, rfl, rfl⟩

/-- With 4 slots a connection is refused after some calls although a slot is free. -/
theorem fresh_refused : ∃ calls : List TableCall,
    (((calls.foldl perform (fresh 4)).addconn 5 tcpSocket (1, 0)).1 = -1 ∧
      ¬(calls.foldl perform (fresh 4)).conns.Full) := by
  obtain ⟨calls, refused⟩ := (initial_fresh 4).exists_refused (by decide) (by decide) (by decide)
  exact ⟨calls, refused 5 tcpSocket (1, 0)⟩

/-- One of two connections is closed, and a third one made. -/
def threeMade : List TableCall :=
  [.addconn 5 tcpSocket (1, 0), .addconn 6 tcpSocket (2, 0), .closeconn 1,
    .addconn 5 tcpSocket (3, 0)]

theorem foldl_perform_flowsFit_six :
    (threeMade.foldl perform (fresh 6)).conns.FlowsFit ∧
      ∀ fd type now, ((threeMade.foldl perform (fresh 6)).addconn fd type now).1 = -1 →
        (threeMade.foldl perform (fresh 6)).conns.Full :=
  (foldl_perform_flowsFit_iff (by decide) (by decide) (initial_fresh 6)).2 (by decide) threeMade

end ConnTable

end Spp
