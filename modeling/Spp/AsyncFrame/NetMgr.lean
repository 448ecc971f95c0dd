import Spp.Lib.Executions
import Spp.Lib.MachineInt
import Mathlib.Data.Finset.Sort
import Mathlib.Data.List.AList
import Mathlib.Data.List.ReduceOption

/-!
# Pools of handlers, `CNetMgr`

`async_frame/NetMgr.cpp` gives out handlers for connections.  A handler for a short or a long
connection is given to one user and is recycled to the idle set of its destination; handlers with
pending requests are in an array for each destination and are shared.  A timer deletes what has been
idle for too long.  An idle set is found by the destination only, so that it has handlers of both
types.

Handlers are pointers (`Nat`), and the use of one that has been deleted is a failure (`none`), as is
the use of an iterator without its element.
-/

namespace Spp.AsyncFrame

/-- The types of connections. -/
inductive ConnType
  | short
  | long
  | longWithPending
  deriving DecidableEq

/-- The protocols. -/
inductive ProtoType
  | udp
  | tcp
  deriving DecidableEq

/-- `handler_idx_t`; `_ip` has room for 17 characters and is not terminated if it is full. -/
structure HandlerIdx where
  ip : { ip : List Char // ip.length < 17 }
  port : UInt16
  proto : ProtoType
  deriving DecidableEq

/-- The part of `CNetHandler` that the manager uses. -/
structure PooledHandler where
  idx : HandlerIdx
  connType : ConnType
  canRecycle : Bool

/-- The handlers with pending requests of a destination, and `_cur_num`. -/
structure HandlerArray where
  curNum : Nat
  slots : List (Option Nat)

/-- `CNetMgr` -/
structure CNetMgr where
  /-- The handlers that have been made and not been deleted. -/
  heap : Nat → Option PooledHandler
  mapHandler : AList fun _ : HandlerIdx => Finset Nat
  mapPendingHandler : AList fun _ : HandlerIdx => HandlerArray
  /-- `_nhptr_mgr`: what users of short and long connections have. -/
  ptrSet : Finset Nat
  maxPendingConnNum : Nat

namespace CNetMgr

/-! ## The calls -/

/-- `new CNetHandler` -/
def create (mgr : CNetMgr) (idx : HandlerIdx) (connType : ConnType) (fresh : Nat) : CNetMgr :=
  { mgr with heap := Function.update mgr.heap fresh (some ⟨idx, connType, false⟩) }

/-- The first handler of the idle set, if there is one. -/
def idleHandler (mgr : CNetMgr) (idx : HandlerIdx) : Option Nat :=
  (mgr.mapHandler.lookup idx).bind fun set => (set.sort (· ≤ ·)).head?

/-- `GetHandler` of a short or a long connection; `fresh` is what `new` returns. -/
def getIdle (mgr : CNetMgr) (idx : HandlerIdx) (connType : ConnType) (fresh : Nat) :
    Nat × CNetMgr :=
  match mgr.idleHandler idx with
  | none =>
      let mgr := mgr.create idx connType fresh
      (fresh, { mgr with ptrSet := insert fresh mgr.ptrSet })
  | some handler =>
      let set := (mgr.mapHandler.lookup idx).getD ∅
      (handler, { mgr with
        mapHandler := mgr.mapHandler.insert idx (set.erase handler)
        ptrSet := insert handler mgr.ptrSet })

/-- `GetHandler` of a connection with pending requests; `choice` is the random slot. -/
def getPending (mgr : CNetMgr) (idx : HandlerIdx) (fresh choice : Nat) : Option (Nat × CNetMgr) :=
  let created := mgr.create idx .longWithPending fresh
  match mgr.mapPendingHandler.lookup idx with
  | none =>
      if mgr.maxPendingConnNum = 0 then none
      else
        let array := ⟨1, (List.replicate mgr.maxPendingConnNum none).set 0 (some fresh)⟩
        some (fresh, { created with
          mapPendingHandler := mgr.mapPendingHandler.insert idx array })
  | some array =>
      match array.slots[choice]? with
      | none => none
      | some none =>
          let array := ⟨u32 (array.curNum + 1), array.slots.set choice (some fresh)⟩
          some (fresh, { created with
            mapPendingHandler := mgr.mapPendingHandler.insert idx array })
      | some (some handler) => some (handler, mgr)

/-- The handler goes from `_nhptr_mgr` to the idle set of its destination. -/
def giveBack (mgr : CNetMgr) (idx : HandlerIdx) (handler : Nat) : CNetMgr :=
  let set := (mgr.mapHandler.lookup idx).getD ∅
  { mgr with
    ptrSet := mgr.ptrSet.erase handler
    mapHandler := mgr.mapHandler.insert idx (insert handler set) }

/-- `RecycleHandler` -/
def recycleHandler (mgr : CNetMgr) (handler : Nat) : Option CNetMgr :=
  (mgr.heap handler).map fun object =>
    if object.connType = .longWithPending then mgr else mgr.giveBack object.idx handler

/-- Deletes the handlers of a list that can be recycled. -/
def sweep : List Nat → (Nat → Option PooledHandler) → Option (Nat → Option PooledHandler)
  | [], heap => some heap
  | handler :: handlers, heap =>
      (heap handler).bind fun object =>
        sweep handlers (if object.canRecycle then Function.update heap handler none else heap)

/-- An entry after its round of `CheckIdleHander`: it is erased if nothing is left. -/
def updateEntry {β : Type} (map : AList fun _ : HandlerIdx => β) (idx : HandlerIdx) (value : β)
    (empty : Bool) : AList fun _ : HandlerIdx => β :=
  if empty then map.erase idx else map.insert idx value

/-- A round of `CheckIdleHander` over the idle sets. -/
def checkIdleSet (mgr : CNetMgr) (idx : HandlerIdx) : Option CNetMgr := do
  let set ← mgr.mapHandler.lookup idx
  let heap ← sweep (set.sort (· ≤ ·)) mgr.heap
  -- a deleted handler is erased from the set
  let set := set.filter fun handler => (heap handler).isSome
  return { mgr with heap, mapHandler := updateEntry mgr.mapHandler idx set (set = ∅) }

/-- A round of `CheckIdleHander` over the arrays. -/
def checkPendingArray (mgr : CNetMgr) (idx : HandlerIdx) : Option CNetMgr := do
  let array ← mgr.mapPendingHandler.lookup idx
  let heap ← sweep array.slots.reduceOption mgr.heap
  -- the slot of a deleted handler is set to `NULL` and `_cur_num` goes down
  let deleted := array.slots.reduceOption.countP fun handler => (heap handler).isNone
  let array : HandlerArray := ⟨u32 (array.curNum - deleted),
    array.slots.map fun slot => slot.filter fun handler => (heap handler).isSome⟩
  return { mgr with
    heap, mapPendingHandler := updateEntry mgr.mapPendingHandler idx array (array.curNum = 0) }

/-- `CheckIdleHander` -/
def checkIdleHander (mgr : CNetMgr) : Option CNetMgr := do
  let mgr ← mgr.mapHandler.keys.foldlM checkIdleSet mgr
  mgr.mapPendingHandler.keys.foldlM checkPendingArray mgr

/-- A call of the manager, or a handler that gets idle or busy. -/
inductive PoolCall
  | get (idx : HandlerIdx) (connType : ConnType) (fresh choice : Nat)
  | recycle (handler : Nat)
  | process (handler : Nat) (canRecycle : Bool)
  | check

/-- What a call returns, and the manager after it. -/
def perform (mgr : CNetMgr) : PoolCall → Option (Option Nat × CNetMgr)
  | .get idx .longWithPending fresh choice =>
      (mgr.getPending idx fresh choice).map fun (handler, mgr) => (some handler, mgr)
  | .get idx connType fresh _ =>
      some (some (mgr.getIdle idx connType fresh).1, (mgr.getIdle idx connType fresh).2)
  | .recycle handler => (mgr.recycleHandler handler).map fun mgr => (none, mgr)
  | .process handler canRecycle =>
      (mgr.heap handler).map fun object =>
        let object := { object with canRecycle }
        (none, { mgr with heap := Function.update mgr.heap handler (some object) })
  | .check => mgr.checkIdleHander.map fun mgr => (none, mgr)

/-! ## The invariant -/

end CNetMgr

/-- The place of a handler: its destination, and whether it is in an array. -/
def PooledHandler.place (object : PooledHandler) : HandlerIdx × Bool :=
  (object.idx, object.connType = .longWithPending)

/-- The handlers of the array are different ones, and are counted. -/
structure HandlerArray.Counted (array : HandlerArray) : Prop where
  curNum_eq : array.curNum = array.slots.reduceOption.length
  distinct : array.slots.reduceOption.Nodup
  short : array.slots.length < 2147483648

namespace CNetMgr

/-- A handler that has not been deleted, and its place. -/
def Stored (heap : Nat → Option PooledHandler) (place : HandlerIdx × Bool) (handler : Nat) : Prop :=
  (heap handler).map PooledHandler.place = some place

/-- Every handler is in its place, and the users have none of the idle sets. -/
structure Sound (mgr : CNetMgr) : Prop where
  idle : ∀ {idx set}, mgr.mapHandler.lookup idx = some set →
    ∀ handler ∈ set, Stored mgr.heap (idx, false) handler ∧ handler ∉ mgr.ptrSet
  pending : ∀ {idx array}, mgr.mapPendingHandler.lookup idx = some array →
    ∀ handler ∈ array.slots.reduceOption, Stored mgr.heap (idx, true) handler
  counted : ∀ {idx array}, mgr.mapPendingHandler.lookup idx = some array → array.Counted
  held : ∀ handler ∈ mgr.ptrSet, ∃ idx, Stored mgr.heap (idx, false) handler
  max_pos : 0 < mgr.maxPendingConnNum
  max_lt : mgr.maxPendingConnNum < 2147483648

variable {heap : Nat → Option PooledHandler} {connType : ConnType} {choice : Nat}
  {array : HandlerArray} {call : PoolCall}

section Stored

variable {heap' : Nat → Option PooledHandler} {place place' : HandlerIdx × Bool}
  {handler fresh : Nat}

theorem Stored.unique (stored : Stored heap place handler) (stored' : Stored heap place' handler) :
    place = place' :=
  Option.some_injective _ (stored.symm.trans stored')

theorem Stored.isSome (stored : Stored heap place handler) : (heap handler).isSome := by
  rw [← Option.isSome_map, stored]
  rfl

theorem Stored.ne_of_none (stored : Stored heap place handler) (unused : heap fresh = none) :
    handler ≠ fresh := by
  rintro rfl
  exact absurd stored.isSome (by rw [unused]; decide)

theorem Stored.of_eq (stored : Stored heap place handler) (same : heap' handler = heap handler) :
    Stored heap' place handler :=
  (congrArg (Option.map PooledHandler.place) same).trans stored

theorem Stored.exists_object {idx : HandlerIdx} (stored : Stored heap (idx, false) handler) :
    ∃ object, heap handler = some object ∧ object.idx = idx ∧
      object.connType ≠ .longWithPending := by
  obtain ⟨object, at_handler, place_eq⟩ := Option.map_eq_some_iff.1 stored
  obtain ⟨rfl, type⟩ := Prod.mk.inj place_eq
  exact ⟨object, at_handler, rfl, of_decide_eq_false type⟩

end Stored

variable {mgr : CNetMgr} {idx : HandlerIdx} {handler fresh : Nat}

theorem idleHandler_eq (found : mgr.idleHandler idx = some handler) :
    ∃ set, mgr.mapHandler.lookup idx = some set ∧ handler ∈ set := by
  obtain ⟨set, lookup, first⟩ := Option.bind_eq_some_iff.1 found
  exact ⟨set, lookup, (Finset.mem_sort _).1 (List.mem_of_head? first)⟩

theorem Sound.of_stored (sound : mgr.Sound)
    (keeps : ∀ place handler, Stored mgr.heap place handler → Stored heap place handler) :
    { mgr with heap }.Sound where
  idle lookup handler member := (sound.idle lookup handler member).imp_left (keeps _ _)
  pending lookup handler member := keeps _ _ (sound.pending lookup handler member)
  counted := sound.counted
  held handler member := (sound.held handler member).imp fun _ => keeps _ _
  max_pos := sound.max_pos
  max_lt := sound.max_lt

theorem stored_create (unused : mgr.heap fresh = none) (idx : HandlerIdx) (connType : ConnType)
    (place : HandlerIdx × Bool) (handler : Nat) (stored : Stored mgr.heap place handler) :
    Stored (mgr.create idx connType fresh).heap place handler :=
  stored.of_eq (Function.update_of_ne (stored.ne_of_none unused) _ _)

theorem stored_create_self (mgr : CNetMgr) (idx : HandlerIdx) (connType : ConnType) (fresh : Nat) :
    Stored (mgr.create idx connType fresh).heap (idx, decide (connType = .longWithPending))
      fresh := by
  show (Function.update mgr.heap fresh _ fresh).map PooledHandler.place = _
  rw [Function.update_self]
  rfl

/-! ### Handlers are given out and recycled -/

theorem Sound.move (sound : mgr.Sound) {set ptrSet : Finset Nat}
    (idle : ∀ handler ∈ set, Stored mgr.heap (idx, false) handler ∧ handler ∉ ptrSet)
    (elsewhere : ∀ other ≠ idx, ∀ handler ∉ mgr.ptrSet, Stored mgr.heap (other, false) handler →
      handler ∉ ptrSet)
    (held : ∀ handler ∈ ptrSet, ∃ idx, Stored mgr.heap (idx, false) handler) :
    { mgr with mapHandler := mgr.mapHandler.insert idx set, ptrSet }.Sound := by
  refine ⟨fun {other set'} lookup handler member => ?_, sound.pending, sound.counted, held,
    sound.max_pos, sound.max_lt⟩
  obtain rfl | ne := eq_or_ne other idx
  · rw [AList.lookup_insert, Option.some_inj] at lookup
    subst lookup
    exact idle handler member
  · rw [AList.lookup_insert_ne ne] at lookup
    have old := sound.idle lookup handler member
    exact ⟨old.1, elsewhere other ne handler old.2 old.1⟩

theorem Sound.getIdle (sound : mgr.Sound) (unused : mgr.heap fresh = none)
    (type : connType ≠ .longWithPending) : (mgr.getIdle idx connType fresh).2.Sound := by
  rw [CNetMgr.getIdle]
  split
  case h_1 =>
    have created := sound.of_stored (stored_create unused idx connType)
    refine ⟨fun {other set} lookup handler member => ⟨(created.idle lookup handler member).1, ?_⟩,
      created.pending, created.counted, fun handler member => ?_, sound.max_pos, sound.max_lt⟩
    · have old := sound.idle lookup handler member
      exact fun given => (Finset.mem_insert.1 given).elim (old.1.ne_of_none unused) old.2
    · rcases Finset.mem_insert.1 member with rfl | member
      · have new := stored_create_self mgr idx connType handler
        rw [decide_eq_false type] at new
        exact ⟨idx, new⟩
      · exact created.held handler member
  case h_2 handler found =>
    obtain ⟨set, lookup, first⟩ := idleHandler_eq found
    have taken := (sound.idle lookup handler first).1
    refine sound.move (fun handler' member => ?_) (fun other ne handler' free stored given => ?_)
      fun handler' member => ?_
    · rw [lookup, Option.getD_some, Finset.mem_erase] at member
      refine (sound.idle lookup handler' member.2).imp_right fun free given => ?_
      exact (Finset.mem_insert.1 given).elim member.1 free
    · rcases Finset.mem_insert.1 given with rfl | given
      · exact ne (congrArg Prod.fst (stored.unique taken))
      · exact free given
    · rcases Finset.mem_insert.1 member with rfl | member
      · exact ⟨idx, taken⟩
      · exact sound.held handler' member

theorem Sound.giveBack (sound : mgr.Sound) (idle : Stored mgr.heap (idx, false) handler) :
    (mgr.giveBack idx handler).Sound := by
  refine sound.move (fun handler' member => ?_)
    (fun _ _ _ free _ given => free (Finset.mem_of_mem_erase given))
    fun handler' member => sound.held handler' (Finset.mem_of_mem_erase member)
  rcases Finset.mem_insert.1 member with rfl | member
  · exact ⟨idle, Finset.notMem_erase _ _⟩
  · cases lookup : mgr.mapHandler.lookup idx with
    | none =>
        rw [lookup] at member
        exact absurd member (Finset.notMem_empty _)
    | some set =>
        rw [lookup] at member
        exact (sound.idle lookup handler' member).imp_right fun free given =>
          free (Finset.mem_of_mem_erase given)

theorem Sound.recycleHandler (sound : mgr.Sound)
    (used : handler ∈ mgr.ptrSet ∨ ∃ idx, Stored mgr.heap (idx, true) handler) :
    ∃ after, mgr.recycleHandler handler = some after ∧ after.Sound := by
  rcases used with given | ⟨idx, stored⟩
  · obtain ⟨idx, idle⟩ := sound.held handler given
    refine ⟨_, ?_, sound.giveBack idle⟩
    obtain ⟨object, at_handler, rfl, type⟩ := idle.exists_object
    rw [CNetMgr.recycleHandler, at_handler, Option.map_some, if_neg type]
  · refine ⟨mgr, ?_, sound⟩
    obtain ⟨object, at_handler, place_eq⟩ := Option.map_eq_some_iff.1 stored
    have type : object.connType = .longWithPending :=
      of_decide_eq_true (congrArg Prod.snd place_eq)
    rw [CNetMgr.recycleHandler, at_handler, Option.map_some, if_pos type]

/-! ### Arrays -/

theorem reduceOption_set {slots : List (Option Nat)} (empty : slots[choice]? = some none)
    (fresh : Nat) :
    (slots.set choice (some fresh)).reduceOption.Perm (fresh :: slots.reduceOption) := by
  induction slots generalizing choice with
  | nil => exact absurd empty (by simp)
  | cons slot slots induction =>
      cases choice with
      | zero =>
          obtain rfl : slot = none := by simpa using empty
          exact List.Perm.refl _
      | succ choice =>
          have perm := induction (by simpa using empty)
          cases slot with
          | none => exact perm
          | some other => exact (perm.cons other).trans (List.Perm.swap _ _ _)

theorem Sound.insertNew (sound : mgr.Sound) (unused : mgr.heap fresh = none)
    (counted : array.Counted)
    (pending : ∀ handler ∈ array.slots.reduceOption, Stored mgr.heap (idx, true) handler)
    (empty : array.slots[choice]? = some none) :
    { mgr.create idx .longWithPending fresh with
      mapPendingHandler := mgr.mapPendingHandler.insert idx
        ⟨u32 (array.curNum + 1), array.slots.set choice (some fresh)⟩ }.Sound := by
  have created := sound.of_stored (stored_create unused idx .longWithPending)
  have perm := reduceOption_set empty fresh
  have new : fresh ∉ array.slots.reduceOption := fun member =>
    (pending fresh member).ne_of_none unused rfl
  have length_le := List.reduceOption_length_le array.slots
  have short := counted.short
  refine ⟨created.idle, fun {other array'} lookup handler member => ?_,
    fun {other array'} lookup => ?_, created.held, sound.max_pos, sound.max_lt⟩
  · obtain rfl | ne := eq_or_ne other idx
    · rw [AList.lookup_insert, Option.some_inj] at lookup
      subst lookup
      rcases List.mem_cons.1 (perm.mem_iff.1 member) with rfl | member
      · exact stored_create_self mgr other .longWithPending handler
      · exact stored_create unused _ _ _ _ (pending handler member)
    · rw [AList.lookup_insert_ne ne] at lookup
      exact created.pending lookup handler member
  · obtain rfl | ne := eq_or_ne other idx
    · rw [AList.lookup_insert, Option.some_inj] at lookup
      subst lookup
      refine ⟨?_, perm.nodup_iff.2 (List.nodup_cons.2 ⟨new, counted.distinct⟩), ?_⟩
      · rw [perm.length_eq, List.length_cons, counted.curNum_eq]
        dsimp only [u32]
        omega
      · rwa [List.length_set]
    · rw [AList.lookup_insert_ne ne] at lookup
      exact sound.counted lookup

theorem Sound.getPending (sound : mgr.Sound) (unused : mgr.heap fresh = none)
    (chosen : ∀ array, mgr.mapPendingHandler.lookup idx = some array →
      choice < array.slots.length) :
    ∃ result, mgr.getPending idx fresh choice = some result ∧ result.2.Sound := by
  rw [CNetMgr.getPending]
  cases lookup : mgr.mapPendingHandler.lookup idx with
  | none =>
      have empty : (List.replicate mgr.maxPendingConnNum (none : Option Nat)).reduceOption = [] :=
        List.reduceOption_replicate_none
      have counted : HandlerArray.Counted ⟨0, List.replicate mgr.maxPendingConnNum none⟩ := by
        refine ⟨by rw [empty]; rfl, by rw [empty]; exact List.nodup_nil, ?_⟩
        rw [List.length_replicate]
        exact sound.max_lt
      dsimp only
      rw [if_neg sound.max_pos.ne']
      refine ⟨_, rfl, sound.insertNew unused counted (by rw [empty]; simp) ?_⟩
      rw [List.getElem?_replicate, if_pos sound.max_pos]
  | some array =>
      obtain ⟨slot, slot_eq⟩ : ∃ slot, array.slots[choice]? = some slot :=
        ⟨_, List.getElem?_eq_getElem (chosen array lookup)⟩
      dsimp only
      rw [slot_eq]
      cases slot with
      | some handler => exact ⟨_, rfl, sound⟩
      | none => exact ⟨_, rfl, sound.insertNew unused (sound.counted lookup) (sound.pending lookup)
          slot_eq⟩

/-! ### Idle handlers are deleted -/

theorem sweep_returns {handlers : List Nat} (distinct : handlers.Nodup)
    (alive : ∀ handler ∈ handlers, (heap handler).isSome) :
    ∃ heap', sweep handlers heap = some heap' ∧
      ∀ handler, heap' handler = heap handler ∨ handler ∈ handlers ∧ heap' handler = none := by
  induction handlers generalizing heap with
  | nil => exact ⟨heap, rfl, fun _ => Or.inl rfl⟩
  | cons first rest induction =>
      obtain ⟨new, distinct⟩ := List.nodup_cons.1 distinct
      obtain ⟨object, at_first⟩ := Option.isSome_iff_exists.1 (alive first List.mem_cons_self)
      rw [sweep, at_first, Option.bind_some]
      set middle := if object.canRecycle then Function.update heap first none else heap
      have same : ∀ handler ≠ first, middle handler = heap handler := by
        intro handler ne
        simp only [middle]
        split
        · exact Function.update_of_ne ne _ _
        · rfl
      obtain ⟨heap', swept, changes⟩ := @induction middle distinct fun handler member => by
        rw [same handler fun eq => new (eq ▸ member)]
        exact alive handler (List.mem_cons_of_mem _ member)
      refine ⟨heap', swept, fun handler => ?_⟩
      rcases changes handler with kept | ⟨member, deleted⟩
      · obtain rfl | ne := eq_or_ne handler first
        · rw [kept]
          simp only [middle]
          split
          · exact Or.inr ⟨List.mem_cons_self, Function.update_self _ _ _⟩
          · exact Or.inl rfl
        · exact Or.inl (kept.trans (same handler ne))
      · exact Or.inr ⟨List.mem_cons_of_mem _ member, deleted⟩

section Changes

variable {heap' : Nat → Option PooledHandler} {handlers : List Nat} {place : HandlerIdx × Bool}

theorem Stored.of_notMem (stored : Stored heap place handler)
    (changes : ∀ handler, heap' handler = heap handler ∨ handler ∈ handlers ∧ heap' handler = none)
    (other : handler ∉ handlers) : Stored heap' place handler :=
  stored.of_eq ((changes handler).resolve_right fun deleted => other deleted.1)

theorem Stored.of_alive (stored : Stored heap place handler)
    (changes : ∀ handler, heap' handler = heap handler ∨ handler ∈ handlers ∧ heap' handler = none)
    (alive : (heap' handler).isSome) : Stored heap' place handler := by
  refine stored.of_eq ((changes handler).resolve_right fun deleted => ?_)
  rw [deleted.2] at alive
  exact absurd alive (by decide)

end Changes

theorem lookup_updateEntry {β : Type} {map : AList fun _ : HandlerIdx => β} {value found : β}
    {empty : Bool} {other : HandlerIdx}
    (lookup : (updateEntry map idx value empty).lookup other = some found) :
    other = idx ∧ found = value ∨ other ≠ idx ∧ map.lookup other = some found := by
  rw [updateEntry] at lookup
  obtain rfl | ne := eq_or_ne other idx
  · refine Or.inl ⟨rfl, ?_⟩
    split at lookup
    · rw [AList.lookup_erase] at lookup
      exact absurd lookup (Option.some_ne_none _).symm
    · rw [AList.lookup_insert] at lookup
      exact (Option.some_injective _ lookup).symm
  · refine Or.inr ⟨ne, ?_⟩
    split at lookup
    · rwa [AList.lookup_erase_ne ne] at lookup
    · rwa [AList.lookup_insert_ne ne] at lookup

theorem mem_updateEntry {β : Type} {map : AList fun _ : HandlerIdx => β} (value : β) (empty : Bool)
    (other : HandlerIdx) (ne : other ≠ idx) (member : other ∈ map) :
    other ∈ updateEntry map idx value empty := by
  rw [updateEntry]
  split
  · exact AList.mem_erase.2 ⟨ne, member⟩
  · exact (AList.mem_insert _).2 (Or.inr member)

theorem Sound.checkIdleSet (sound : mgr.Sound) (present : idx ∈ mgr.mapHandler) :
    ∃ after, mgr.checkIdleSet idx = some after ∧ after.Sound ∧
      ∀ other ≠ idx, other ∈ mgr.mapHandler → other ∈ after.mapHandler := by
  obtain ⟨set, lookup⟩ := Option.isSome_iff_exists.1 (AList.lookup_isSome.2 present)
  have idle : ∀ handler ∈ set.sort (· ≤ ·), _ := fun handler member =>
    sound.idle lookup handler ((Finset.mem_sort _).1 member)
  obtain ⟨heap, swept, changes⟩ := sweep_returns (Finset.sort_nodup set (· ≤ ·))
    fun handler member => (idle handler member).1.isSome
  have returned : mgr.checkIdleSet idx = some { mgr with
      heap
      mapHandler := updateEntry mgr.mapHandler idx (set.filter fun handler => (heap handler).isSome)
        ((set.filter fun handler => (heap handler).isSome) = ∅) } := by
    rw [CNetMgr.checkIdleSet, lookup, Option.bind_eq_bind, Option.bind_some, swept]
    rfl
  refine ⟨_, returned, ⟨fun {other set'} found handler member => ?_,
      fun {other array} found handler member => ?_,
      sound.counted, fun handler given => ?_, sound.max_pos, sound.max_lt⟩, mem_updateEntry _ _⟩
  · rcases lookup_updateEntry found with ⟨rfl, rfl⟩ | ⟨ne, found⟩
    · obtain ⟨member, alive⟩ := Finset.mem_filter.1 member
      exact (sound.idle lookup handler member).imp_left (·.of_alive changes alive)
    · refine (sound.idle found handler member).imp_left fun stored => stored.of_notMem changes ?_
      exact fun at_idx => ne (congrArg Prod.fst (stored.unique (idle handler at_idx).1))
  · have stored := sound.pending found handler member
    refine stored.of_notMem changes fun at_idx => ?_
    exact Bool.false_ne_true (congrArg Prod.snd ((idle handler at_idx).1.unique stored))
  · refine (sound.held handler given).imp fun other stored => stored.of_notMem changes ?_
    exact fun at_idx => (idle handler at_idx).2 given

theorem reduceOption_filter (slots : List (Option Nat)) (stays : Nat → Bool) :
    (slots.map fun slot => slot.filter stays).reduceOption = slots.reduceOption.filter stays := by
  induction slots with
  | nil => rfl
  | cons slot slots induction =>
      cases slot with
      | none => exact induction
      | some handler =>
          rw [List.map_cons, Option.filter_some, List.reduceOption_cons_of_some]
          cases stays_eq : stays handler with
          | true => rw [List.filter_cons_of_pos stays_eq, ← induction]; rfl
          | false => rw [List.filter_cons_of_neg (by simp [stays_eq]), ← induction]; rfl

theorem counted_filter (counted : array.Counted) (heap : Nat → Option PooledHandler) :
    HandlerArray.Counted
      ⟨u32 (array.curNum - array.slots.reduceOption.countP fun handler => (heap handler).isNone),
        array.slots.map fun slot => slot.filter fun handler => (heap handler).isSome⟩ := by
  have length_le := List.reduceOption_length_le array.slots
  have short := counted.short
  have split := @List.length_eq_countP_add_countP _ (fun handler => (heap handler).isSome)
    array.slots.reduceOption
  have others : array.slots.reduceOption.countP (fun handler => (heap handler).isNone) =
      array.slots.reduceOption.countP fun handler => ¬(heap handler).isSome = true := by
    congr 1
    funext handler
    cases heap handler <;> rfl
  refine ⟨?_, ?_, ?_⟩
  · rw [reduceOption_filter, ← List.countP_eq_length_filter, counted.curNum_eq, others]
    dsimp only [u32]
    omega
  · rw [reduceOption_filter]
    exact counted.distinct.filter _
  · rwa [List.length_map]

theorem Sound.checkPendingArray (sound : mgr.Sound) (present : idx ∈ mgr.mapPendingHandler) :
    ∃ after, mgr.checkPendingArray idx = some after ∧ after.Sound ∧
      ∀ other ≠ idx, other ∈ mgr.mapPendingHandler → other ∈ after.mapPendingHandler := by
  obtain ⟨array, lookup⟩ := Option.isSome_iff_exists.1 (AList.lookup_isSome.2 present)
  have counted := sound.counted lookup
  obtain ⟨heap, swept, changes⟩ := sweep_returns counted.distinct fun handler member =>
    (sound.pending lookup handler member).isSome
  -- what users have and what is idle is not in an array
  have others : ∀ {idx' handler}, Stored mgr.heap (idx', false) handler →
      Stored heap (idx', false) handler := by
    intro idx' handler stored
    refine stored.of_notMem changes fun at_idx => ?_
    exact Bool.false_ne_true (congrArg Prod.snd (stored.unique (sound.pending lookup _ at_idx)))
  have returned : ∃ left : HandlerArray, mgr.checkPendingArray idx = some { mgr with
      heap
      mapPendingHandler := updateEntry mgr.mapPendingHandler idx left (left.curNum = 0) } ∧
      left.Counted ∧ left.slots.reduceOption =
        array.slots.reduceOption.filter fun handler => (heap handler).isSome := by
    refine ⟨_, ?_, counted_filter counted heap, reduceOption_filter _ _⟩
    rw [CNetMgr.checkPendingArray, lookup, Option.bind_eq_bind, Option.bind_some, swept]
    rfl
  obtain ⟨left, returned, left_counted, left_eq⟩ := returned
  refine ⟨_, returned,
    ⟨fun {other set} found handler member => (sound.idle found handler member).imp_left others,
      fun {other array'} found handler member => ?_, fun {other array'} found => ?_,
      fun handler given => (sound.held handler given).imp fun _ => others,
      sound.max_pos, sound.max_lt⟩, mem_updateEntry _ _⟩
  · rcases lookup_updateEntry found with ⟨rfl, rfl⟩ | ⟨ne, found⟩
    · rw [left_eq] at member
      obtain ⟨member, alive⟩ := List.mem_filter.1 member
      exact (sound.pending lookup handler member).of_alive changes alive
    · have stored := sound.pending found handler member
      refine stored.of_notMem changes fun at_idx => ?_
      exact ne (congrArg Prod.fst (stored.unique (sound.pending lookup handler at_idx)))
  · rcases lookup_updateEntry found with ⟨rfl, rfl⟩ | ⟨ne, found⟩
    · exact left_counted
    · exact sound.counted found

theorem Sound.foldlM {round : CNetMgr → HandlerIdx → Option CNetMgr}
    {present : CNetMgr → HandlerIdx → Prop}
    (step : ∀ {mgr idx}, mgr.Sound → present mgr idx → ∃ after, round mgr idx = some after ∧
      after.Sound ∧ ∀ other ≠ idx, present mgr other → present after other)
    {keys : List HandlerIdx} (distinct : keys.Nodup) (sound : mgr.Sound)
    (all : ∀ idx ∈ keys, present mgr idx) :
    ∃ after, keys.foldlM round mgr = some after ∧ after.Sound := by
  induction keys generalizing mgr with
  | nil => exact ⟨mgr, rfl, sound⟩
  | cons idx keys induction =>
      obtain ⟨new, distinct⟩ := List.nodup_cons.1 distinct
      obtain ⟨middle, returned, middle_sound, others⟩ := step sound (all idx List.mem_cons_self)
      obtain ⟨after, rest, after_sound⟩ := induction distinct middle_sound fun other member =>
        others other (fun same => new (same ▸ member)) (all other (List.mem_cons_of_mem _ member))
      exact ⟨after, by rw [List.foldlM_cons, returned]; exact rest, after_sound⟩

theorem Sound.checkIdleHander (sound : mgr.Sound) :
    ∃ after, mgr.checkIdleHander = some after ∧ after.Sound := by
  obtain ⟨middle, idle_done, middle_sound⟩ := Sound.foldlM Sound.checkIdleSet
    mgr.mapHandler.keys_nodup sound fun _ => id
  obtain ⟨after, pending_done, after_sound⟩ := Sound.foldlM Sound.checkPendingArray
    middle.mapPendingHandler.keys_nodup middle_sound fun _ => id
  exact ⟨after, by rw [CNetMgr.checkIdleHander, idle_done]; exact pending_done, after_sound⟩

/-! ## Runs -/

/-- What a caller can do: `new` returns a pointer that is not in use, the random slot is one of the
array, and a handler is recycled by its user. -/
def Possible (mgr : CNetMgr) : PoolCall → Prop
  | .get idx _ fresh choice => mgr.heap fresh = none ∧
      ∀ array, mgr.mapPendingHandler.lookup idx = some array → choice < array.slots.length
  | .recycle handler => handler ∈ mgr.ptrSet ∨ ∃ idx, Stored mgr.heap (idx, true) handler
  | .process handler _ => (mgr.heap handler).isSome
  | .check => True

/-- The manager after a call. -/
def after (mgr : CNetMgr) (call : PoolCall) : CNetMgr := ((mgr.perform call).map Prod.snd).getD mgr

/-- No deleted handler is in a map, no user has an idle handler, and the handlers of an array are
counted. -/
structure Clean (mgr : CNetMgr) : Prop where
  idle_alive : ∀ idx set, mgr.mapHandler.lookup idx = some set →
    ∀ handler ∈ set, (mgr.heap handler).isSome
  idle_free : ∀ idx set, mgr.mapHandler.lookup idx = some set →
    ∀ handler ∈ set, handler ∉ mgr.ptrSet
  pending_alive : ∀ idx array, mgr.mapPendingHandler.lookup idx = some array →
    ∀ handler ∈ array.slots.reduceOption, (mgr.heap handler).isSome
  curNum_eq : ∀ idx array, mgr.mapPendingHandler.lookup idx = some array →
    array.curNum = array.slots.reduceOption.length

/-- The handler of a request for a short or a long connection is for this destination and of this
type, is not idle any more, and no other user has it. -/
structure Answers (mgr after : CNetMgr) (idx : HandlerIdx) (connType : ConnType) (handler : Nat) :
    Prop where
  exact_handler : ∃ object, after.heap handler = some object ∧ object.idx = idx ∧
    object.connType = connType
  not_idle : ∀ idx' set, after.mapHandler.lookup idx' = some set → handler ∉ set
  not_given : handler ∉ mgr.ptrSet

/-- A request is answered. -/
def Answered (mgr after : CNetMgr) : PoolCall → Option Nat → Prop
  | .get idx connType _ _, result => connType ≠ .longWithPending →
      ∃ handler, result = some handler ∧ mgr.Answers after idx connType handler
  | _, _ => True

/-- A call that returns a right handler and leaves the maps in order. -/
def Right (mgr : CNetMgr) (call : PoolCall) : Prop :=
  ∃ result after, mgr.perform call = some (result, after) ∧ after.Clean ∧
    mgr.Answered after call result

/-- An idle handler that is given out is of the type that is asked for. -/
def Matches (mgr : CNetMgr) : PoolCall → Prop
  | .get idx connType _ _ => connType ≠ .longWithPending →
      ∀ handler object, mgr.idleHandler idx = some handler → mgr.heap handler = some object →
        object.connType = connType
  | _ => True

theorem Sound.clean (sound : mgr.Sound) : mgr.Clean where
  idle_alive _ _ lookup handler member := (sound.idle lookup handler member).1.isSome
  idle_free _ _ lookup handler member := (sound.idle lookup handler member).2
  pending_alive _ _ lookup handler member := (sound.pending lookup handler member).isSome
  curNum_eq _ _ lookup := (sound.counted lookup).curNum_eq

theorem perform_get (type : connType ≠ .longWithPending) (choice : Nat) :
    mgr.perform (.get idx connType fresh choice) =
      some (some (mgr.getIdle idx connType fresh).1, (mgr.getIdle idx connType fresh).2) := by
  cases connType with
  | short | long => rfl
  | longWithPending => exact absurd rfl type

theorem Sound.perform (sound : mgr.Sound) (possible : mgr.Possible call) :
    ∃ result after, mgr.perform call = some (result, after) ∧ after.Sound := by
  cases call with
  | get idx connType fresh choice =>
      obtain rfl | type := eq_or_ne connType .longWithPending
      · obtain ⟨result, returned, result_sound⟩ := sound.getPending possible.1 possible.2
        exact ⟨_, _, congrArg (Option.map _) returned, result_sound⟩
      · exact ⟨_, _, perform_get type choice, sound.getIdle possible.1 type⟩
  | recycle handler =>
      obtain ⟨after, returned, after_sound⟩ := sound.recycleHandler possible
      exact ⟨none, after, congrArg (Option.map _) returned, after_sound⟩
  | process handler canRecycle =>
      obtain ⟨object, at_handler⟩ := Option.isSome_iff_exists.1 possible
      refine ⟨none, _, congrArg (Option.map _) at_handler, sound.of_stored ?_⟩
      intro place other stored
      obtain rfl | ne := eq_or_ne other handler
      · rw [Stored, at_handler] at stored
        rw [Stored, Function.update_self]
        exact stored
      · exact stored.of_eq (Function.update_of_ne ne _ _)
  | check =>
      obtain ⟨after, returned, after_sound⟩ := sound.checkIdleHander
      exact ⟨none, after, congrArg (Option.map _) returned, after_sound⟩

theorem Sound.after (sound : mgr.Sound) (possible : mgr.Possible call) :
    (mgr.after call).Sound := by
  obtain ⟨result, after, returned, after_sound⟩ := sound.perform possible
  rw [CNetMgr.after, returned]
  exact after_sound

/-- The type is all that can be wrong about a handler that is given out. -/
theorem Sound.answers_iff (sound : mgr.Sound) (unused : mgr.heap fresh = none)
    (type : connType ≠ .longWithPending) :
    mgr.Answers (mgr.getIdle idx connType fresh).2 idx connType
        (mgr.getIdle idx connType fresh).1 ↔
      ∀ handler object, mgr.idleHandler idx = some handler → mgr.heap handler = some object →
        object.connType = connType := by
  have after_sound : (mgr.getIdle idx connType fresh).2.Sound := sound.getIdle unused type
  have given : (mgr.getIdle idx connType fresh).1 ∈ (mgr.getIdle idx connType fresh).2.ptrSet := by
    rw [CNetMgr.getIdle]
    split <;> exact Finset.mem_insert_self _ _
  have not_idle : ∀ idx' set, (mgr.getIdle idx connType fresh).2.mapHandler.lookup idx' = some set →
      (mgr.getIdle idx connType fresh).1 ∉ set := fun _ _ lookup member =>
    (after_sound.idle lookup _ member).2 given
  cases found : mgr.idleHandler idx with
  | none =>
      have get_eq : mgr.getIdle idx connType fresh = (fresh,
          { mgr.create idx connType fresh with ptrSet := insert fresh mgr.ptrSet }) := by
        rw [CNetMgr.getIdle, found]
        rfl
      refine iff_of_true ⟨?_, not_idle, ?_⟩ (by simp)
      · rw [get_eq]
        exact ⟨_, Function.update_self _ _ _, rfl, rfl⟩
      · intro member
        obtain ⟨_, stored⟩ := sound.held _ member
        rw [get_eq] at stored
        exact stored.ne_of_none unused rfl
  | some handler =>
      obtain ⟨set, lookup, member⟩ := idleHandler_eq found
      have free := (sound.idle lookup handler member).2
      obtain ⟨object, at_handler, idx_eq, -⟩ := (sound.idle lookup handler member).1.exists_object
      have first_eq : (mgr.getIdle idx connType fresh).1 = handler := by rw [CNetMgr.getIdle, found]
      have heap_eq : (mgr.getIdle idx connType fresh).2.heap = mgr.heap := by
        rw [CNetMgr.getIdle, found]
      constructor
      · rintro ⟨⟨object', at_handler', -, type_eq⟩, -, -⟩ _ _ ⟨⟩ at_other
        rw [first_eq, heap_eq, at_other] at at_handler'
        exact Option.some_injective _ at_handler' ▸ type_eq
      · intro same
        refine ⟨⟨object, ?_, idx_eq, same handler object rfl at_handler⟩, not_idle, ?_⟩
        · rwa [first_eq, heap_eq]
        · rwa [first_eq]

theorem Sound.right_iff (sound : mgr.Sound) (possible : mgr.Possible call) :
    mgr.Right call ↔ mgr.Matches call := by
  obtain ⟨result, after, returned, after_sound⟩ := sound.perform possible
  cases call with
  | get idx connType fresh choice =>
      obtain rfl | type := eq_or_ne connType .longWithPending
      · exact iff_of_true
          ⟨result, after, returned, after_sound.clean, fun other => absurd rfl other⟩
          fun other => absurd rfl other
      · refine Iff.trans ?_ ((sound.answers_iff possible.1 type).trans
          ⟨fun same _ => same, fun same => same type⟩)
        rw [Right, perform_get type choice]
        constructor
        · rintro ⟨_, _, ⟨⟩, -, answered⟩
          obtain ⟨_, ⟨⟩, answers⟩ := answered type
          exact answers
        · exact fun answers => ⟨_, _, rfl, (sound.getIdle possible.1 type).clean,
            fun _ => ⟨_, rfl, answers⟩⟩
  | recycle handler => exact iff_of_true ⟨_, _, returned, after_sound.clean, trivial⟩ trivial
  | process handler canRecycle =>
      exact iff_of_true ⟨_, _, returned, after_sound.clean, trivial⟩ trivial
  | check => exact iff_of_true ⟨_, _, returned, after_sound.clean, trivial⟩ trivial

/-- All calls of a run are right exactly if every idle handler that is given out is of the type that
is asked for. -/
theorem along_matches_iff {mgr : CNetMgr} {calls : List PoolCall} (sound : mgr.Sound)
    (possible : Executions.Along CNetMgr.after CNetMgr.Possible mgr calls) :
    Executions.Along CNetMgr.after CNetMgr.Right mgr calls ↔
      Executions.Along CNetMgr.after CNetMgr.Matches mgr calls :=
  Executions.along_iff (fun _ _ sound possible => sound.right_iff possible)
    (fun _ _ sound possible _ => sound.after possible) sound possible

/-- A manager without handlers. -/
def initial : CNetMgr := ⟨fun _ => none, ∅, ∅, ∅, 10⟩

theorem sound_initial : initial.Sound :=
  ⟨fun lookup => absurd lookup (by simp [initial]), fun lookup => absurd lookup (by simp [initial]),
    fun lookup => absurd lookup (by simp [initial]),
    fun _ member => absurd member (Finset.notMem_empty _), by decide, by decide⟩

/-- The destination 10.0.0.1:80 -/
def destination : HandlerIdx :=
  ⟨⟨['1', '0', '.', '0', '.', '0', '.', '1'], by decide⟩, 80, .tcp⟩

theorem possible_get (unused : (mgr.heap fresh).isNone)
    (no_array : (mgr.mapPendingHandler.lookup idx).isNone) :
    mgr.Possible (.get idx connType fresh choice) := by
  refine ⟨Option.isNone_iff_eq_none.1 unused, fun array lookup => ?_⟩
  rw [lookup] at no_array
  exact absurd no_array Bool.false_ne_true

theorem matches_get
    (same : ∀ type ∈ ((mgr.idleHandler idx).bind mgr.heap).map PooledHandler.connType,
      type = connType) : mgr.Matches (.get idx connType fresh choice) := by
  intro _ handler object found at_handler
  refine same _ (Option.mem_map_of_mem _ ?_)
  rw [found, Option.bind_some, at_handler]
  rfl

/-- A handler is recycled, given out again for the same type, and deleted in the end. -/
theorem along_matches_again :
    Executions.Along CNetMgr.after CNetMgr.Right initial
      [.get destination .long 1 0, .recycle 1, .get destination .long 2 0, .recycle 1,
       .process 1 true, .check] := by
  refine (along_matches_iff sound_initial ?_).2 ?_
  · refine ⟨possible_get ?_ ?_, Or.inl ?_, possible_get ?_ ?_, Or.inl ?_,
      (show (_ : Bool) = true from ?_), trivial, trivial⟩
    all_goals decide +kernel
  · refine ⟨matches_get ?_, trivial, matches_get ?_, trivial, trivial, trivial, trivial⟩
    all_goals decide +kernel

/-- A request for a short connection gets a handler for long connections. -/
theorem getHandler_other_type :
    let recycled := (initial.after (.get destination .long 1 0)).after (.recycle 1)
    let answer := recycled.perform (.get destination .short 2 0)
    answer.map Prod.fst = some (some 1) ∧
      (answer.bind fun result => result.2.heap 1).map PooledHandler.connType = some .long ∧
      ¬recycled.Right (.get destination .short 2 0) := by
  intro recycled answer
  have returned : answer.map Prod.fst = some (some 1) := by decide +kernel
  have type : (answer.bind fun result => result.2.heap 1).map PooledHandler.connType =
      some .long := by decide +kernel
  refine ⟨returned, type, ?_⟩
  rintro ⟨result, after, performed, -, right⟩
  obtain ⟨handler, rfl, ⟨object, at_handler, -, type_eq⟩, -, -⟩ := right (by decide)
  obtain rfl : handler = 1 := by
    have same : answer = some (some handler, after) := performed
    rw [same] at returned
    simpa using returned
  have same : answer = some (some 1, after) := performed
  rw [same, Option.bind_some, at_handler, Option.map_some, type_eq] at type
  exact absurd type (by decide)

end CNetMgr

end Spp.AsyncFrame
