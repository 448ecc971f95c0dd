import Spp.MicroThread.WaitSend

/-!
# Runs of a link

Handlers begin calls of `WaitSend`, the link becomes writable, and handlers go on.
-/

namespace Spp.SendLink

variable {ι : Type} [DecidableEq ι]

/-- What the condition says of an event: no datagram is sent from the queue; a call begins without
an error of an earlier one; when `OutputNotify` runs, no handler that is done is still waiting. -/
def Event.Safe (link : SendLink ι) : Event ι → Prop
  | .waitSend key _ next => link.Quiet next ∧ (link.handler key).errNo = 0
  | .outputNotify next => link.Quiet next ∧
      ∀ key, link.parked key = true → (link.handler key).reqData ≠ []
  | .resume _ => True

/-- Runs of events from a new link. -/
def Reaches (protoType : NetProto) (link : SendLink ι) : Prop :=
  Relation.ReflTransGen (fun before after => ∃ event, before.step event = some after)
    (start protoType) link

/-- Runs that meet the condition. -/
def SafeReaches (protoType : NetProto) (link : SendLink ι) : Prop :=
  Relation.ReflTransGen (fun before after => ∃ event, Event.Safe before event ∧
    before.step event = some after) (start protoType) link

/-- Zero is returned for what was sent. -/
def Truthful (link : SendLink ι) : Prop :=
  ∀ key code, link.returned key = some code → (code = 0 ↔ link.sent key = link.asked key)

/-- The handlers that wait hold what is left of their data. -/
structure Inv (link : SendLink ι) : Prop where
  nodup : link.waitSend.Nodup
  waiting : ∀ key ∈ link.waitSend, link.parked key = true
  busy : ∀ key, link.parked key = true → link.returned key = none
  split : ∀ key, link.parked key = true →
    link.asked key = link.sent key ++ (link.handler key).reqData
  error : ∀ key, link.parked key = true → (link.handler key).errNo = 0 ∨
    link.alive = false ∧ (link.handler key).reqData ≠ []
  truthful : link.Truthful

section Steps

variable {link after : SendLink ι} {own : Option (ι × List UInt8)} {ret : Int} {key : ι}

omit [DecidableEq ι] in
theorem Inv.errNo_eq (inv : Inv link) (alive : link.alive = true)
    (parked : link.parked key = true) :
    (link.handler key).errNo = 0 := by
  rcases inv.error key parked with zero | ⟨dead, -⟩
  · exact zero
  · rw [alive] at dead
    cases dead

omit [DecidableEq ι] in
theorem Inv.sends (inv : Inv link) (alive : link.alive = true) (sends : Sends link own ret after)
    (own_idle : ∀ key data, own = some (key, data) →
      link.parked key = false ∧ link.returned key = none) : Inv after := by
  have not_own : ∀ key, link.parked key = true → ∀ data, own ≠ some (key, data) := by
    intro key parked data is_own
    rw [(own_idle key data is_own).1] at parked
    cases parked
  constructor
  · exact sends.sublist.nodup inv.nodup
  · intro key member
    rw [sends.parked_eq]
    exact inv.waiting key (sends.sublist.subset member)
  · rw [sends.parked_eq, sends.returned_eq]
    exact inv.busy
  · intro key parked
    rw [sends.parked_eq] at parked
    rw [sends.asked_eq, sends.whole key (not_own key parked)]
    exact inv.split key parked
  · intro key parked
    rw [sends.parked_eq] at parked
    rw [sends.errNo_eq]
    exact Or.inl (inv.errNo_eq alive parked)
  · intro key code returns
    rw [sends.returned_eq] at returns
    rw [sends.asked_eq, sends.untouched key]
    · exact inv.truthful key code returns
    · intro member
      rw [inv.busy key (inv.waiting key member)] at returns
      cases returns
    · intro data is_own
      rw [(own_idle key data is_own).2] at returns
      cases returns

theorem Inv.setHandler (inv : Inv link) (not_parked : link.parked key = false)
    (handler : SendHandler) : Inv (link.setHandler key handler) := by
  obtain ⟨nodup, waiting, busy, split, error, truthful⟩ := inv
  refine ⟨nodup, waiting, busy, ?_, ?_, truthful⟩ <;>
    simp only [SendLink.setHandler, Function.update_apply] <;> grind

theorem Inv.request (inv : Inv link) (not_parked : link.parked key = false) (data : List UInt8) :
    Inv (link.request key data) := by
  obtain ⟨nodup, waiting, busy, split, error, truthful⟩ := inv
  refine ⟨nodup, waiting, ?_, ?_, ?_, ?_⟩ <;>
    simp only [SendLink.request, SendLink.setHandler, Truthful, Function.update_apply] <;>
    grind [Truthful]

theorem Inv.finish (inv : Inv link) (not_mem : key ∉ link.waitSend) {code : Int}
    (true_code : code = 0 ↔ link.sent key = link.asked key) : Inv (link.finish key code) := by
  obtain ⟨nodup, waiting, busy, split, error, truthful⟩ := inv
  refine ⟨nodup, ?_, ?_, ?_, ?_, ?_⟩ <;>
    simp only [SendLink.finish, Truthful, Function.update_apply] <;> grind [Truthful]

theorem Inv.park (inv : Inv link) (not_mem : key ∉ link.waitSend)
    (no_error : (link.handler key).errNo = 0)
    (not_returned : link.returned key = none)
    (split : link.asked key = link.sent key ++ (link.handler key).reqData) :
    Inv { link with
      waitSend := link.waitSend ++ [key], parked := Function.update link.parked key true } := by
  obtain ⟨nodup, waiting, busy, split', error, truthful⟩ := inv
  refine ⟨?_, ?_, ?_, ?_, ?_, truthful⟩
  · exact nodup.append (List.nodup_singleton key) (List.disjoint_singleton.mpr not_mem)
  all_goals
    simp only [Function.update_apply]
    grind

theorem Inv.beginWaitSend (inv : Inv link) (alive : link.alive = true)
    (not_parked : link.parked key = false) {data : List UInt8} (some_data : 0 < data.length)
    (small : data.length < 4294967296) {next : Nat → SendOutcome} (quiet : link.Quiet next)
    (no_error : (link.handler key).errNo = 0) : Inv (link.beginWaitSend key data next) := by
  have not_mem : key ∉ link.waitSend := by
    intro member
    rw [inv.waiting key member] at not_parked
    cases not_parked
  have returned_none : (link.request key data).returned key = none := Function.update_self ..
  have own_eq : ∀ other bytes, some (key, data) = some (other, bytes) → key = other := by
    rintro other bytes is_own
    cases is_own
    rfl
  have sends : Sends (link.request key data) (some (key, data))
      ((link.request key data).sendData next (some (key, data))).1
      ((link.request key data).sendData next (some (key, data))).2 := by
    refine sendData_sends quiet inv.nodup fun other bytes is_own => ?_
    rw [← own_eq other bytes is_own]
    exact not_mem
  have sent_inv := (inv.request not_parked data).sends alive sends fun other bytes is_own => by
    rw [← own_eq other bytes is_own]
    exact ⟨not_parked, returned_none⟩
  rw [SendLink.beginWaitSend]
  generalize (link.request key data).sendData next (some (key, data)) = result at sends sent_inv ⊢
  obtain ⟨ret, sent⟩ := result
  dsimp only at sends sent_inv ⊢
  have asked_eq : sent.asked key = data :=
    (congrFun sends.asked_eq key).trans (Function.update_self ..)
  have nothing : (link.request key data).sent key = [] := Function.update_self ..
  have still_not_mem : key ∉ sent.waitSend := fun member => not_mem (sends.sublist.subset member)
  obtain ⟨handler_eq, ⟨negative, sent_eq⟩ | ⟨count, le, rfl, sent_eq⟩⟩ :=
    sends.own_sent key data rfl
  · rw [if_pos negative]
    refine sent_inv.finish still_not_mem ⟨fun zero => absurd zero (by decide), fun all => ?_⟩
    rw [sent_eq, nothing, asked_eq] at all
    rw [← all] at some_data
    exact absurd some_data (Nat.lt_irrefl 0)
  · have count_eq : u32 (count : Int) = count := by
      rw [u32, Int.emod_eq_of_lt (by omega) (by omega), Int.toNat_natCast]
    have own_handler : sent.handler key = { link.handler key with reqData := data } :=
      handler_eq.trans (Function.update_self ..)
    have skip_eq : (sent.skipSendPos key count).1 = count := by
      rw [skipSendPos_eq, own_handler]
      exact Nat.min_eq_left le
    have left_eq : ((sent.skipSendPos key count).2.handler key).reqData = data.drop count := by
      rw [skipSendPos_reqData, skip_eq, own_handler]
    have not_parked_sent : sent.parked key = false :=
      (congrFun sends.parked_eq key).trans not_parked
    have skip_inv : Inv (sent.skipSendPos key count).2 := sent_inv.setHandler not_parked_sent _
    have sent_take : (sent.skipSendPos key count).2.sent key = data.take count := by
      rw [← List.nil_append (data.take count), ← nothing, ← sent_eq]
      rfl
    rw [if_neg (by omega), count_eq]
    by_cases done : ((sent.skipSendPos key count).2.handler key).reqData.length = 0
    · rw [if_pos done]
      refine skip_inv.finish still_not_mem ⟨fun _ => ?_, fun _ => rfl⟩
      rw [left_eq, List.length_drop] at done
      rw [sent_take, List.take_of_length_le (by omega)]
      exact asked_eq.symm
    · rw [if_neg done]
      refine skip_inv.park still_not_mem ?_ ?_ ?_
      · rw [skipSendPos_errNo, own_handler]
        exact no_error
      · exact (congrFun sends.returned_eq key).trans returned_none
      · rw [sent_take, left_eq, List.take_append_drop]
        exact asked_eq

theorem Inv.outputNotify (inv : Inv link) (alive : link.alive = true) {next : Nat → SendOutcome}
    (quiet : link.Quiet next)
    (left : ∀ key, link.parked key = true → (link.handler key).reqData ≠ []) :
    Inv (link.outputNotify next) := by
  have sends : Sends link none (link.sendData next none).1 (link.sendData next none).2 :=
    sendData_sends quiet inv.nodup nofun
  have sent_inv := inv.sends alive sends nofun
  rw [SendLink.outputNotify]
  by_cases negative : (link.sendData next none).1 < 0
  · simp only [if_pos negative]
    refine ⟨List.nodup_nil, fun _ member => absurd member List.not_mem_nil, sent_inv.busy,
      sent_inv.split, fun key parked => Or.inr ⟨rfl, ?_⟩, sent_inv.truthful⟩
    have was_parked : link.parked key = true := (congrFun sends.parked_eq key).symm.trans parked
    rw [sends.failed negative key]
    exact left key was_parked
  · simp only [if_neg negative]
    exact sent_inv

theorem Inv.endWaitSend (inv : Inv link) (parked : link.parked key = true) :
    Inv (link.endWaitSend key) := by
  have idle_inv : Inv (link.switchToIdle key) :=
    ⟨inv.nodup.erase key, fun other member => inv.waiting other (List.mem_of_mem_erase member),
      inv.busy, inv.split, inv.error, inv.truthful⟩
  have split := inv.split key parked
  rw [SendLink.endWaitSend]
  refine idle_inv.finish inv.nodup.not_mem_erase ?_
  have all_iff : link.sent key = link.asked key ↔ (link.handler key).reqData = [] := by
    rw [split]
    exact List.self_eq_append_right
  refine Iff.trans ?_ all_iff.symm
  by_cases no_error : (link.handler key).errNo = 0
  · rw [if_neg (not_not_intro no_error)]
    by_cases done : (link.handler key).reqData.length = 0
    · rw [if_pos done]
      exact ⟨fun _ => List.length_eq_zero_iff.mp done, fun _ => rfl⟩
    · rw [if_neg done]
      exact ⟨fun zero => absurd zero (by decide),
        fun empty => absurd (List.length_eq_zero_iff.mpr empty) done⟩
  · obtain zero | ⟨-, left⟩ := inv.error key parked
    · exact absurd zero no_error
    · rw [if_pos no_error]
      exact ⟨fun zero => absurd zero no_error, fun empty => absurd empty left⟩

theorem Inv.step (inv : Inv link) {event : Event ι} (safe : Event.Safe link event)
    (steps : link.step event = some after) : Inv after := by
  cases event with
  | waitSend key data next =>
      obtain ⟨⟨alive, not_parked, some_data, small⟩, same⟩ := Option.ite_none_right_eq_some.mp steps
      cases same
      exact inv.beginWaitSend alive not_parked some_data small safe.1 safe.2
  | outputNotify next =>
      obtain ⟨alive, same⟩ := Option.ite_none_right_eq_some.mp steps
      cases same
      exact inv.outputNotify alive safe.1 safe.2
  | resume key =>
      obtain ⟨parked, same⟩ := Option.ite_none_right_eq_some.mp steps
      cases same
      exact inv.endWaitSend parked

/-- In every run that meets the condition, a call of `WaitSend` returns 0 if and only if the socket
has accepted all bytes of its request. -/
theorem safeReaches_truthful {protoType : NetProto} (reaches : SafeReaches protoType link) :
    link.Truthful := by
  have inv : Inv link := by
    induction reaches with
    | refl =>
        refine ⟨List.nodup_nil, fun _ member => absurd member List.not_mem_nil, ?_, ?_, ?_, ?_⟩ <;>
          exact nofun
    | tail _ step induction =>
        obtain ⟨event, safe, steps⟩ := step
        exact induction.step safe steps
  exact inv.truthful

end Steps

/-- A request of three bytes on a TCP link, one of which the socket accepts at once. -/
def partlyQueued : SendLink Unit := (start .tcp).beginWaitSend () [1, 2, 3] fun _ => .accepted 1

/-- The call returns, after the socket has accepted the other bytes. -/
def wholeSent : SendLink Unit :=
  (partlyQueued.outputNotify fun _ => .accepted 2).endWaitSend ()

theorem safeReaches_truthful_sample :
    SafeReaches .tcp wholeSent ∧ wholeSent.returned () = some 0 ∧
      ((0 : Int) = 0 ↔ wholeSent.sent () = wholeSent.asked ()) := by
  have queued : SafeReaches .tcp partlyQueued :=
    Relation.ReflTransGen.single ⟨.waitSend () [1, 2, 3] fun _ => .accepted 1, ⟨nofun, rfl⟩, rfl⟩
  have written : SafeReaches .tcp (partlyQueued.outputNotify fun _ => .accepted 2) :=
    queued.tail ⟨.outputNotify fun _ => .accepted 2,
      ⟨nofun, fun _ _ => List.cons_ne_nil 2 [3]⟩, rfl⟩
  have reaches : SafeReaches .tcp wholeSent := written.tail ⟨.resume (), trivial, rfl⟩
  exact ⟨reaches, rfl, safeReaches_truthful reaches () 0 rfl⟩

/-- A datagram waits. -/
def datagramQueued : SendLink Unit := (start .udp).beginWaitSend () [1, 2, 3] fun _ => .again

/-- The call returns, after `OutputNotify` has sent the datagram. -/
def datagramSent : SendLink Unit :=
  (datagramQueued.outputNotify fun _ => .accepted 3).endWaitSend ()

/-- The socket has accepted the datagram, and `WaitSend` fails. -/
theorem reaches_not_truthful :
    Reaches .udp datagramSent ∧ datagramSent.sent () = datagramSent.asked () ∧
      datagramSent.returned () = some rcSendFail ∧ ¬datagramSent.Truthful := by
  have queued : Reaches .udp datagramQueued :=
    Relation.ReflTransGen.single ⟨.waitSend () [1, 2, 3] fun _ => .again, rfl⟩
  have written : Reaches .udp (datagramQueued.outputNotify fun _ => .accepted 3) :=
    queued.tail ⟨.outputNotify fun _ => .accepted 3, rfl⟩
  have reaches : Reaches .udp datagramSent := written.tail ⟨.resume (), rfl⟩
  refine ⟨reaches, rfl, rfl, fun truthful => ?_⟩
  exact absurd ((truthful () rcSendFail rfl).mpr rfl) (by decide)

end Spp.SendLink
