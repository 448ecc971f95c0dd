import Spp.Nest.MsgCtx

/-!
# The contexts by flow and by age, `CMsgCtxMng`

`nest/comm/nest_context.cpp` keeps every context in a map by its flow and in a list by its
age.  `insert_ctx` overwrites the entry of the map and leaves the old context in the list;
`remove_ctx` erases the entry of its flow, whatever it holds.

The contexts of the pool are numbers, and `alloc_ctx` gives one that is not in the list.
-/

namespace Spp

/-- The contexts, their map and their list. -/
structure CtxStore where
  ctx : Nat → CMsgCtx
  ctxMap : UInt32 → Option Nat
  linkList : List Nat

namespace CtxStore

/-- `get_flow_id` -/
def getFlowId (store : CtxStore) (ptr : Nat) : UInt32 := (store.ctx ptr).msgHead.flow

/-- `get_start_time` -/
def getStartTime (store : CtxStore) (ptr : Nat) : Nat := (store.ctx ptr).timeStart

/-- `insert_ctx` of a context that `alloc_ctx` has given, with its header and time. -/
def insertCtx (store : CtxStore) (ptr : Nat) (ctx : CMsgCtx) : CtxStore where
  ctx := Function.update store.ctx ptr ctx
  ctxMap := Function.update store.ctxMap ctx.msgHead.flow (some ptr)
  linkList := store.linkList.erase ptr ++ [ptr]

/-- `remove_ctx` -/
def removeCtx (store : CtxStore) (ptr : Nat) : CtxStore :=
  { store with
    ctxMap := Function.update store.ctxMap (store.getFlowId ptr) none
    linkList := store.linkList.erase ptr }

/-- `find_ctx` -/
def findCtx (store : CtxStore) (flow : UInt32) : Option Nat := store.ctxMap flow

/-- A response takes its context. -/
def restore (store : CtxStore) (flow : UInt32) : CtxStore :=
  match store.findCtx flow with
  | none => store
  | some ptr => store.removeCtx ptr

/-- The loop of `check_expired`; every round takes one context out of the list. -/
def expireLoop (now maxWait : Nat) : (rounds : Nat) → CtxStore → CtxStore
  | 0, store => store
  | rounds + 1, store =>
      match store.linkList with
      | [] => store
      | ptr :: _ =>
          if u64 (store.getStartTime ptr + maxWait) > now then
            store
          else
            expireLoop now maxWait rounds (store.removeCtx ptr)

/-- `check_expired` -/
def checkExpired (store : CtxStore) (now maxWait : Nat) : CtxStore :=
  expireLoop now maxWait store.linkList.length store

/-- There are no contexts. -/
def empty : CtxStore := ⟨fun _ => ⟨0, .zero⟩, fun _ => none, []⟩

/-- The map and the list agree. -/
structure Agrees (store : CtxStore) : Prop where
  listed : ∀ ptr ∈ store.linkList, store.findCtx (store.getFlowId ptr) = some ptr
  mapped : ∀ flow ptr, store.findCtx flow = some ptr →
    ptr ∈ store.linkList ∧ store.getFlowId ptr = flow

/-- `check_expired` removes the contexts that are old enough, and no other. -/
def ExpiresExactly (store : CtxStore) (now maxWait : Nat) : Prop :=
  ∀ ptr, ptr ∈ (store.checkExpired now maxWait).linkList ↔
    ptr ∈ store.linkList ∧ now < store.getStartTime ptr + maxWait

/-- The states that calls lead to, with the time of the last one.  A flow is not inserted while it
is in the map, and the sum of a time and the longest wait is a 64-bit number. -/
inductive SafeReaches : CtxStore → Nat → Prop where
  | start (clock : Nat) : SafeReaches empty clock
  | insert {store : CtxStore} {clock ptr now : Nat} {head : TNetCommuHead}
      (reached : SafeReaches store clock) (later : clock ≤ now) (unused : ptr ∉ store.linkList)
      (missing : store.findCtx head.flow = none) : SafeReaches (store.insertCtx ptr ⟨now, head⟩) now
  | restore {store : CtxStore} {clock : Nat} (reached : SafeReaches store clock) (flow : UInt32) :
      SafeReaches (store.restore flow) clock
  | expire {store : CtxStore} {clock now maxWait : Nat} (reached : SafeReaches store clock)
      (later : clock ≤ now) (small : now + maxWait < 18446744073709551616) :
      SafeReaches (store.checkExpired now maxWait) now

/-- The list has each context once, in the order of the times. -/
structure Sound (store : CtxStore) (clock : Nat) : Prop extends Agrees store where
  nodup : store.linkList.Nodup
  sorted : store.linkList.Pairwise fun one other =>
    store.getStartTime one ≤ store.getStartTime other
  past : ∀ ptr ∈ store.linkList, store.getStartTime ptr ≤ clock

variable {store : CtxStore} {clock : Nat}

section Insert

variable {ptr other : Nat} {ctx : CMsgCtx}

theorem linkList_insertCtx (unused : ptr ∉ store.linkList) :
    (store.insertCtx ptr ctx).linkList = store.linkList ++ [ptr] := by
  rw [insertCtx, List.erase_of_not_mem unused]

/-- The map and the list agree afterwards if and only if no other context has the flow. -/
theorem Agrees.insertCtx_iff (agrees : Agrees store) (unused : ptr ∉ store.linkList)
    (ctx : CMsgCtx) :
    (store.insertCtx ptr ctx).Agrees ↔ store.findCtx ctx.msgHead.flow = none := by
  obtain ⟨listed, mapped⟩ := agrees
  constructor
  · rintro ⟨after, -⟩
    by_contra taken
    obtain ⟨other, found⟩ := Option.ne_none_iff_exists'.1 taken
    obtain ⟨member, other_flow⟩ := mapped _ _ found
    have entry := after other (linkList_insertCtx unused ▸ List.mem_append_left _ member)
    simp only [findCtx, getFlowId, insertCtx, Function.update_apply] at *
    grind
  · intro missing
    constructor <;> rw [linkList_insertCtx unused] <;>
      simp only [findCtx, getFlowId, insertCtx, Function.update_apply] at * <;> grind

theorem Sound.insertCtx (sound : Sound store clock) {now : Nat} (later : clock ≤ now)
    (unused : ptr ∉ store.linkList) {head : TNetCommuHead}
    (missing : store.findCtx head.flow = none) :
    Sound (store.insertCtx ptr ⟨now, head⟩) now := by
  obtain ⟨agrees, nodup, sorted, past⟩ := sound
  refine ⟨(agrees.insertCtx_iff unused _).2 missing, ?_, ?_, ?_⟩ <;> rw [linkList_insertCtx unused]
  · exact nodup.append (List.nodup_singleton ptr) (List.disjoint_singleton.2 unused)
  · rw [List.pairwise_append]
    refine ⟨sorted.imp_of_mem fun one other order => ?_, List.pairwise_singleton .., ?_⟩ <;>
      simp only [getStartTime, CtxStore.insertCtx, Function.update_apply] at * <;> grind
  · simp only [getStartTime, CtxStore.insertCtx, Function.update_apply] at *
    grind

end Insert

theorem Sound.removeCtx (sound : Sound store clock) {ptr : Nat} (member : ptr ∈ store.linkList) :
    Sound (store.removeCtx ptr) clock := by
  have entry := sound.listed ptr member
  refine ⟨⟨fun other inside => ?_, fun flow other found => ?_⟩, sound.nodup.erase ptr,
    sound.sorted.sublist List.erase_sublist, fun other inside =>
      sound.past other (List.mem_of_mem_erase inside)⟩
  all_goals
    obtain ⟨⟨listed, mapped⟩, nodup, -⟩ := sound
    simp only [CtxStore.removeCtx, findCtx, getFlowId, Function.update_apply,
      nodup.mem_erase_iff] at *
    grind

theorem Sound.restore (sound : Sound store clock) (flow : UInt32) :
    Sound (store.restore flow) clock := by
  rw [CtxStore.restore]
  cases found : store.findCtx flow with
  | none => exact sound
  | some ptr => exact sound.removeCtx (sound.mapped flow ptr found).1

/-- The loop removes the contexts that are old enough; they are at the front. -/
theorem Sound.expireLoop (sound : Sound store clock) {now maxWait : Nat} (later : clock ≤ now)
    (small : now + maxWait < 18446744073709551616) {rounds : Nat}
    (enough : store.linkList.length ≤ rounds) :
    Sound (expireLoop now maxWait rounds store) clock ∧
      ∀ ptr, ptr ∈ (CtxStore.expireLoop now maxWait rounds store).linkList ↔
        ptr ∈ store.linkList ∧ now < store.getStartTime ptr + maxWait := by
  induction rounds generalizing store with
  | zero =>
      have none_left : store.linkList = [] := List.length_eq_zero_iff.1 (Nat.le_zero.1 enough)
      refine ⟨sound, fun ptr => ?_⟩
      rw [CtxStore.expireLoop, none_left]
      exact ⟨fun member => absurd member List.not_mem_nil, And.left⟩
  | succ rounds induction =>
      rw [CtxStore.expireLoop]
      split
      · rename_i none_left
        refine ⟨sound, fun ptr => ?_⟩
        rw [none_left]
        exact ⟨fun member => absurd member List.not_mem_nil, And.left⟩
      · rename_i first rest list_eq
        have member : first ∈ store.linkList := list_eq ▸ List.mem_cons_self
        have first_past := sound.past first member
        have sum_eq : u64 ((store.getStartTime first : Int) + maxWait) =
            store.getStartTime first + maxWait := by
          unfold u64
          omega
        have sorted := list_eq ▸ sound.sorted
        rw [sum_eq]
        split
        · rename_i young
          refine ⟨sound, fun ptr => ⟨fun inside => ⟨inside, ?_⟩, And.left⟩⟩
          rcases List.mem_cons.1 (list_eq ▸ inside) with rfl | behind
          · exact young
          · have := List.rel_of_pairwise_cons sorted behind
            omega
        · rename_i old
          have removed_eq : (store.removeCtx first).linkList = rest := by
            rw [CtxStore.removeCtx, list_eq, List.erase_cons_head]
          have length_eq := congrArg List.length list_eq
          rw [List.length_cons] at length_eq
          obtain ⟨after_sound, after_iff⟩ := induction (sound.removeCtx member) (by
            rw [removed_eq]
            omega)
          refine ⟨after_sound, fun ptr => (after_iff ptr).trans ?_⟩
          rw [removed_eq, list_eq, List.mem_cons]
          refine ⟨fun inside => ⟨Or.inr inside.1, inside.2⟩, fun inside => ⟨?_, inside.2⟩⟩
          rcases inside.1 with rfl | behind
          · exact absurd inside.2 old
          · exact behind

theorem SafeReaches.sound (reached : SafeReaches store clock) : Sound store clock := by
  induction reached with
  | start clock =>
      exact ⟨⟨fun _ member => absurd member List.not_mem_nil, nofun⟩, List.nodup_nil,
        List.Pairwise.nil, fun _ member => absurd member List.not_mem_nil⟩
  | insert _ later unused missing sound => exact sound.insertCtx later unused missing
  | restore _ flow sound => exact sound.restore flow
  | expire _ later small sound =>
      have after := (sound.expireLoop later small (le_refl _)).1
      exact { after with past := fun ptr member => (after.past ptr member).trans later }

/-- While no flow is inserted that is in the map, the map and the list hold the same contexts and
`check_expired` removes those that are old enough.  Such an insertion ends this. -/
theorem safeReaches_agrees (reached : SafeReaches store clock) :
    store.Agrees ∧
      (∀ now maxWait, clock ≤ now → now + maxWait < 18446744073709551616 →
        store.ExpiresExactly now maxWait) ∧
      ∀ ptr ctx, ptr ∉ store.linkList →
        ((store.insertCtx ptr ctx).Agrees ↔ store.findCtx ctx.msgHead.flow = none) := by
  have sound := reached.sound
  refine ⟨sound.toAgrees, fun now maxWait later small => ?_, fun ptr ctx unused =>
    sound.toAgrees.insertCtx_iff unused ctx⟩
  exact (sound.expireLoop later small (le_refl _)).2

/-- A message from port 9000. -/
def received (time : Nat) (flow : UInt32) : CMsgCtx :=
  ⟨time, { TNetCommuHead.zero with msgLen := 60, flow, fromPort := 9000 }⟩

/-- Three messages, of which the second one has been answered. -/
def twoLeft : CtxStore :=
  (((empty.insertCtx 0 (received 5 7)).insertCtx 1 (received 6 8)).insertCtx 2
    (received 9 3)).restore 8

theorem safeReaches_agrees_twoLeft :
    twoLeft.Agrees ∧ twoLeft.linkList = [0, 2] ∧ twoLeft.ExpiresExactly 15 10 ∧
      ¬(twoLeft.insertCtx 1 (received 10 3)).Agrees := by
  have reached : SafeReaches twoLeft 9 := by
    refine .restore (.insert (.insert (.insert (.start 0) ?_ ?_ ?_) ?_ ?_ ?_) ?_ ?_ ?_) 8
    all_goals decide
  obtain ⟨agrees, exact_expiry, insert_iff⟩ := safeReaches_agrees reached
  refine ⟨agrees, by decide, exact_expiry 15 10 (by decide) (by decide), fun after => ?_⟩
  cases (insert_iff 1 _ (by decide)).1 after

/-- Two contexts with the same flow, the second one 5 ms later. -/
def sameFlowTwice : CtxStore := (empty.insertCtx 0 ⟨0, .zero⟩).insertCtx 1 ⟨5, .zero⟩

/-- When the first one expires, the second one is left without an entry in the map. -/
theorem sameFlowTwice_checkExpired :
    (sameFlowTwice.checkExpired 10 10).linkList = [1] ∧
      (sameFlowTwice.checkExpired 10 10).findCtx 0 = none ∧
      (sameFlowTwice.checkExpired 10 10).getFlowId 1 = 0 := by
  decide

end CtxStore

end Spp
