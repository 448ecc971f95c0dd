import Spp.Comm.Stat

/-!
# Registration in the statistics pool

Every object is free, in the hands of one process or in one bucket.  The objects of an id follow
each other in their chain as long as no two processes register ids of one bucket at the same time;
two that do may register an id twice, or part its objects.
-/

namespace Spp

open LinkedChain

/-- Where an object is: in the free list (`none`) or the chain of a bucket, or with a process. -/
inductive StatPlace
  | listed (list : Option Nat)
  | held (process : Nat)
  deriving DecidableEq

namespace TStatPool

/-- `next_` of an object. -/
def link (pool : TStatPool) (handle : Nat) : Option Nat :=
  (pool.statobjs handle).next

/-- The first object of the free list (`none`) or of a bucket. -/
def head (pool : TStatPool) : (list : Option Nat) → Option Nat
  | none => pool.freelist
  | some bucket => pool.bucket bucket

/-- Those of some objects that have an id. -/
def ofId (pool : TStatPool) (id : CStr) (nodes : List Nat) : List Nat :=
  nodes.filter fun handle => (pool.statobjs handle).id = id

end TStatPool

/-- The value cells of two objects have none in common. -/
def TStatObj.Apart (obj other : TStatObj) : Prop :=
  obj.valOffset + obj.valSize ≤ other.valOffset ∨ other.valOffset + other.valSize ≤ obj.valOffset

/-! ## Walks along a chain -/

section Walks

variable {pool : TStatPool} {start : Option Nat} {nodes : List Nat} {id : CStr} {rounds : Nat}

theorem mem_ofId {handle : Nat} :
    handle ∈ pool.ofId id nodes ↔ handle ∈ nodes ∧ (pool.statobjs handle).id = id := by
  simp [TStatPool.ofId]

theorem ofId_congr {after : TStatPool}
    (agree : ∀ handle ∈ nodes, (after.statobjs handle).id = (pool.statobjs handle).id) :
    after.ofId id nodes = pool.ofId id nodes :=
  List.filter_congr fun handle member => by rw [agree handle member]

theorem findLoop_eq (chain : Chain pool.link start nodes) (nodup : nodes.Nodup)
    (enough : nodes.length < rounds) :
    pool.findLoop id none rounds start = some (.handle (pool.ofId id nodes).head?) := by
  rw [TStatPool.ofId, List.head?_filter]
  induction nodes generalizing start rounds with
  | nil =>
      obtain ⟨rounds, rfl⟩ : ∃ left, rounds = left + 1 := ⟨rounds - 1, by simp at enough; omega⟩
      cases chain
      rfl
  | cons node rest induction =>
      obtain ⟨rounds, rfl⟩ : ∃ left, rounds = left + 1 := ⟨rounds - 1, by simp at enough; omega⟩
      obtain ⟨rfl, tail⟩ := chain
      rw [TStatPool.findLoop, List.find?_cons]
      by_cases same : (pool.statobjs node).id = id
      · simp [same]
      · have not_self : (pool.statobjs node).next ≠ some node := by
          intro self
          cases rest with
          | nil => cases (show pool.link node = none from tail).symm.trans self
          | cons second more =>
              obtain rfl : node = second := Option.some.inj (self.symm.trans tail.1)
              exact (List.nodup_cons.1 nodup).1 List.mem_cons_self
        simp only [same, false_and, if_false, if_neg not_self, decide_false]
        exact induction tail (List.nodup_cons.1 nodup).2 (Nat.lt_of_succ_lt_succ enough)

theorem stepLoop_eq (chain : Chain pool.link start nodes) (enough : nodes.length < rounds) :
    pool.stepLoop id rounds start =
      some (nodes.takeWhile fun handle => (pool.statobjs handle).id = id) := by
  induction nodes generalizing start rounds with
  | nil =>
      obtain ⟨rounds, rfl⟩ : ∃ left, rounds = left + 1 := ⟨rounds - 1, by simp at enough; omega⟩
      cases chain
      rfl
  | cons node rest induction =>
      obtain ⟨rounds, rfl⟩ : ∃ left, rounds = left + 1 := ⟨rounds - 1, by simp at enough; omega⟩
      obtain ⟨rfl, tail⟩ := chain
      have walked : pool.stepLoop id rounds (pool.statobjs node).next = _ :=
        induction tail (Nat.lt_of_succ_lt_succ enough)
      by_cases same : (pool.statobjs node).id = id
      · simp [TStatPool.stepLoop, same, walked]
      · simp [TStatPool.stepLoop, same]

end Walks

/-- Handles of objects without repetition are at most as many as the objects. -/
theorem length_le_of_handles {nodes : List Nat} (nodup : nodes.Nodup)
    (inside : ∀ handle ∈ nodes, handle < defaultStatobjNum) :
    nodes.length ≤ defaultStatobjNum := by
  have subset : nodes ⊆ List.range defaultStatobjNum := fun handle member =>
    List.mem_range.2 (inside handle member)
  simpa using (List.subperm_of_subset nodup subset).length_le

namespace StatSystem

variable {system after : StatSystem} {pool pool' : TStatPool} {lists lists' : Option Nat → List Nat}
  {place place' : Nat → StatPlace}

/-- The free list and the chains of the buckets end, and have the objects that are in them. -/
structure Layout (pool : TStatPool) (lists : Option Nat → List Nat) (place : Nat → StatPlace) :
    Prop where
  chain : ∀ list, Chain pool.link (pool.head list) (lists list)
  nodup : ∀ list, (lists list).Nodup
  mem_iff : ∀ list handle,
    handle ∈ lists list ↔ handle < defaultStatobjNum ∧ place handle = .listed list
  used : pool.statobjsUsed + (lists none).length = defaultStatobjNum

/-- The value cells of the objects that are not free. -/
structure Cells (pool : TStatPool) (place : Nat → StatPlace) : Prop where
  below : ∀ handle, handle < defaultStatobjNum → place handle ≠ .listed none →
    (pool.statobjs handle).valOffset + (pool.statobjs handle).valSize ≤ pool.statvalsUsed
  apart : ∀ handle other, handle < defaultStatobjNum → other < defaultStatobjNum →
    place handle ≠ .listed none → place other ≠ .listed none → handle ≠ other →
      (pool.statobjs handle).Apart (pool.statobjs other)

/-- The objects in the chains are the registered ones, and those of an id follow each other. -/
structure Content (pool : TStatPool) (registered : List Registered)
    (lists : Option Nat → List Nat) : Prop where
  bucket : ∀ bucket, ∀ handle ∈ lists (some bucket), hashid (pool.statobjs handle).id = bucket
  grouped : ∀ bucket id, pool.ofId id (lists (some bucket)) <:+: lists (some bucket)
  mem_iff : ∀ id type handle, ⟨id, type, handle⟩ ∈ registered ↔
    handle ∈ lists (some (hashid id)) ∧ (pool.statobjs handle).id = id ∧
      (pool.statobjs handle).type = type
  unique : (registered.map fun entry => (entry.id, entry.type)).Nodup

/-- What a process relies on that registers an id: the objects of the id are the first ones of their
chain, and they are of other types than those that are left. -/
structure Working (pool : TStatPool) (lists : Option Nat → List Nat) (call : StatCall)
    (left : List Nat) : Prop where
  short : call.id.length < statIdMaxLen
  nodup : left.Nodup
  front : pool.ofId call.id (lists (some (hashid call.id))) <+: lists (some (hashid call.id))
  fresh : ∀ handle ∈ pool.ofId call.id (lists (some (hashid call.id))),
    (pool.statobjs handle).type ∉ left

/-- What a process relies on at each place in `init_statobj`. -/
def Relies (pool : TStatPool) (lists : Option Nat → List Nat) (place : Nat → StatPlace)
    (process : Nat) : (phase : StatPhase) → Prop
  | .idle _ | .exited => True
  | .checking call type types | .allocating call type types =>
      Working pool lists call (type :: types)
  | .initialising call type types choice =>
      Working pool lists call (type :: types) ∧ choice < defaultStatobjNum ∧
        place choice = .held process
  | .inserting call type types choice =>
      Working pool lists call (type :: types) ∧ choice < defaultStatobjNum ∧
        place choice = .held process ∧ (pool.statobjs choice).id = call.id ∧
        (pool.statobjs choice).type = type

/-- The invariant; no two processes register ids of one bucket. -/
structure Holds (system : StatSystem) (lists : Option Nat → List Nat) (place : Nat → StatPlace) :
    Prop where
  layout : Layout system.pool lists place
  cells : Cells system.pool place
  content : Content system.pool system.registered lists
  relies : ∀ process, Relies system.pool lists place process (system.phase process)
  apart : ∀ process other call call', process ≠ other → (system.phase process).call = some call →
    (system.phase other).call = some call' → hashid call.id ≠ hashid call'.id

/-- The invariant holds for some lists and places of the objects. -/
def Sound (system : StatSystem) : Prop :=
  ∃ lists place, system.Holds lists place

/-! ## The condition -/

/-- The condition for the next step of a process: `id_` has room for the id and no other process is
registering an id of the same bucket when a search begins, and there still is room when an object is
allocated. -/
def Safe (system : StatSystem) (process : Nat) (call : StatCall) : Prop :=
  match system.phase process with
  | .idle _ =>
      call.id.length < statIdMaxLen ∧
        ∀ other call', other ≠ process → (system.phase other).call = some call' →
          hashid call.id ≠ hashid call'.id
  | .allocating call _ _ => system.pool.allocRefused call.valSize = false
  | _ => True

/-! ## How the invariant moves on -/

variable {process choice handle type : Nat} {call : StatCall} {left nodes types rest : List Nat}
  {id : CStr} {new phase : StatPhase} {registered : List Registered}

theorem goTo_self (system : StatSystem) (process : Nat) (new : StatPhase) :
    (system.goTo process new).phase process = new :=
  Function.update_self ..

theorem Layout.length_le (layout : Layout pool lists place) (list : Option Nat) :
    (lists list).length ≤ defaultStatobjNum :=
  length_le_of_handles (layout.nodup list) fun handle member =>
    ((layout.mem_iff list handle).1 member).1

theorem Layout.not_mem (layout : Layout pool lists place) (held : place choice = .held process)
    (list : Option Nat) : choice ∉ lists list := by
  simp [layout.mem_iff, held]

theorem Cells.congr (cells : Cells pool place) (used : pool'.statvalsUsed = pool.statvalsUsed)
    (free : ∀ handle, place' handle = .listed none ↔ place handle = .listed none)
    (agree : ∀ handle, (pool'.statobjs handle).valOffset = (pool.statobjs handle).valOffset ∧
      (pool'.statobjs handle).valSize = (pool.statobjs handle).valSize) : Cells pool' place' := by
  have below := cells.below
  have apart := cells.apart
  constructor
  · simpa only [ne_eq, free, used, agree] using below
  · simpa only [ne_eq, free, TStatObj.Apart, agree] using apart

theorem Content.congr (content : Content pool registered lists)
    (lists_eq : ∀ bucket, lists' (some bucket) = lists (some bucket))
    (agree : ∀ bucket, ∀ handle ∈ lists (some bucket),
      pool'.statobjs handle = pool.statobjs handle) : Content pool' registered lists' := by
  constructor
  · intro bucket handle member
    rw [lists_eq] at member
    rw [agree bucket handle member]
    exact content.bucket bucket handle member
  · intro bucket id
    have ofId_eq : pool'.ofId id (lists (some bucket)) = pool.ofId id _ :=
      ofId_congr fun handle member => by rw [agree bucket handle member]
    rw [lists_eq, ofId_eq]
    exact content.grouped bucket id
  · intro id type handle
    rw [content.mem_iff, lists_eq]
    exact and_congr_right fun member => by rw [agree _ handle member]
  · exact content.unique

theorem Working.congr (working : Working pool lists call left)
    (lists_eq : lists' (some (hashid call.id)) = lists (some (hashid call.id)))
    (agree : ∀ handle ∈ lists (some (hashid call.id)),
      pool'.statobjs handle = pool.statobjs handle) : Working pool' lists' call left := by
  have ofId_eq : pool'.ofId call.id (lists (some (hashid call.id))) = pool.ofId call.id _ :=
    ofId_congr fun handle member => by rw [agree handle member]
  refine ⟨working.short, working.nodup, ?_, fun handle member => ?_⟩
  · rw [lists_eq, ofId_eq]
    exact working.front
  · rw [lists_eq, ofId_eq] at member
    rw [agree handle (mem_ofId.1 member).1]
    exact working.fresh handle member

/-- An object changes that is in no chain and not with the process. -/
theorem Relies.congr (relies : Relies pool lists place process phase)
    (lists_eq : ∀ call, phase.call = some call →
      lists' (some (hashid call.id)) = lists (some (hashid call.id)))
    (not_mem : ∀ bucket, choice ∉ lists (some bucket)) (not_held : place choice ≠ .held process)
    (agree : ∀ handle, handle ≠ choice →
      pool'.statobjs handle = pool.statobjs handle ∧ place' handle = place handle) :
    Relies pool' lists' place' process phase := by
  have keep : ∀ {call left}, phase.call = some call → Working pool lists call left →
      Working pool' lists' call left := by
    intro call left in_call working
    refine working.congr (lists_eq call in_call) fun handle member => (agree handle ?_).1
    rintro rfl
    exact not_mem _ member
  have other : ∀ {handle}, place handle = .held process → handle ≠ choice := by
    rintro handle held rfl
    exact not_held held
  cases phase with
  | idle | exited => trivial
  | checking | allocating => exact keep rfl relies
  | initialising =>
      obtain ⟨working, inside, held⟩ := relies
      exact ⟨keep rfl working, inside, (agree _ (other held)).2.trans held⟩
  | inserting =>
      obtain ⟨working, inside, held, written⟩ := relies
      refine ⟨keep rfl working, inside, (agree _ (other held)).2.trans held, ?_⟩
      rwa [(agree _ (other held)).1]

/-- A process goes on. -/
theorem Holds.advance (holds : system.Holds lists place)
    (phase_eq : after.phase = Function.update system.phase process new)
    (layout : Layout after.pool lists' place') (cells : Cells after.pool place')
    (content : Content after.pool after.registered lists')
    (mine : Relies after.pool lists' place' process new)
    (others : ∀ other, other ≠ process →
      Relies after.pool lists' place' other (system.phase other))
    (apart : ∀ other call call', other ≠ process → new.call = some call →
      (system.phase other).call = some call' → hashid call.id ≠ hashid call'.id) :
    after.Holds lists' place' := by
  refine ⟨layout, cells, content, ?_, fun first second call call' ne => ?_⟩
  · rw [phase_eq]
    exact (Function.forall_update_iff _ (Relies after.pool lists' place')).2 ⟨mine, others⟩
  · have before := holds.apart first second call call' ne
    simp only [phase_eq, Function.update_apply]
    grind

theorem Holds.goTo (holds : system.Holds lists place)
    (mine : Relies system.pool lists place process new)
    (apart : ∀ other call call', other ≠ process → new.call = some call →
      (system.phase other).call = some call' → hashid call.id ≠ hashid call'.id) :
    (system.goTo process new).Holds lists place :=
  holds.advance rfl holds.layout holds.cells holds.content mine
    (fun other _ => holds.relies other) apart

theorem Holds.apart_of_call (holds : system.Holds lists place)
    (call_eq : ∀ call, new.call = some call → (system.phase process).call = some call) :
    ∀ other call call', other ≠ process → new.call = some call →
      (system.phase other).call = some call' → hashid call.id ≠ hashid call'.id :=
  fun other call call' ne in_call => holds.apart process other call call' ne.symm
    (call_eq call in_call)

theorem Sound.allocating (sound : system.Sound)
    (at_check : system.phase process = .checking call type types) :
    (system.goTo process (.allocating call type types)).Sound := by
  obtain ⟨lists, place, holds⟩ := sound
  have working := holds.relies process
  rw [at_check] at working
  exact ⟨lists, place,
    holds.goTo working (holds.apart_of_call (by simp [at_check, StatPhase.call]))⟩

theorem Sound.exited (sound : system.Sound) : (system.goTo process .exited).Sound := by
  obtain ⟨lists, place, holds⟩ := sound
  exact ⟨lists, place, holds.goTo trivial (by simp [StatPhase.call])⟩

/-! ## The search -/

theorem Layout.findStatobj_eq (layout : Layout pool lists place) (id : CStr) :
    pool.findStatobj id none =
      some (.handle (pool.ofId id (lists (some (hashid id)))).head?) :=
  findLoop_eq (layout.chain (some _)) (layout.nodup _) (Nat.lt_succ_of_le (layout.length_le _))

theorem types_nodup (call : StatCall) : call.types.Nodup := by
  apply List.Nodup.filter
  decide

theorem relies_round (working : Working pool lists call types) :
    Relies pool lists place process (.round call types) := by
  cases types with
  | nil => trivial
  | cons type types => exact working

theorem round_call {call' : StatCall} (in_call : (StatPhase.round call types).call = some call') :
    call' = call := by
  cases types with
  | nil => cases in_call
  | cons type types => exact (Option.some.inj in_call).symm

theorem search_sound (sound : system.Sound) (short : call.id.length < statIdMaxLen)
    (alone : ∀ other call', other ≠ process → (system.phase other).call = some call' →
      hashid call.id ≠ hashid call'.id) :
    ∃ after, system.search process call = some after ∧ after.Sound := by
  obtain ⟨lists, place, holds⟩ := sound
  rw [search, holds.layout.findStatobj_eq]
  cases found : (system.pool.ofId call.id (lists (some (hashid call.id)))).head? with
  | some handle => exact ⟨_, rfl, lists, place, holds.goTo trivial (by simp [StatPhase.call])⟩
  | none =>
      rw [List.head?_eq_none_iff] at found
      refine ⟨_, rfl, lists, place, holds.goTo (relies_round ⟨short, types_nodup call, ?_, ?_⟩) ?_⟩
      · rw [found]
        exact List.nil_prefix
      · simp [found]
      · intro other call' call'' ne in_call
        cases round_call in_call
        exact alone other call'' ne

/-! ## Allocation -/

theorem Layout.alloc (layout : Layout pool lists place) (lists_eq : lists none = choice :: rest)
    (link_eq : pool'.link = pool.link) (freelist_eq : pool'.freelist = pool.link choice)
    (bucket_eq : pool'.bucket = pool.bucket)
    (used_eq : pool'.statobjsUsed = pool.statobjsUsed + 1) :
    Layout pool' (Function.update lists none rest)
      (Function.update place choice (.held process)) := by
  have free := layout.nodup none
  have used := layout.used
  have first := layout.chain none
  rw [lists_eq] at free used first
  constructor
  · intro list
    rw [link_eq]
    cases list with
    | none =>
        rw [Function.update_self, TStatPool.head, freelist_eq]
        exact first.2
    | some bucket =>
        rw [Function.update_of_ne (by simp), TStatPool.head, bucket_eq]
        exact layout.chain (some bucket)
  · exact (Function.forall_update_iff lists fun _ nodes => nodes.Nodup).2
      ⟨free.of_cons, fun list _ => layout.nodup list⟩
  · intro list handle
    have before := layout.mem_iff list handle
    have is_free := layout.mem_iff none choice
    simp only [Function.update_apply]
    grind
  · rw [Function.update_self, used_eq]
    simp only [List.length_cons, Nat.cast_add, Nat.cast_one] at used
    omega

theorem Cells.alloc {size : Int} (cells : Cells pool place) (positive : 1 ≤ size)
    (choice_eq : (pool'.statobjs choice).valOffset = pool.statvalsUsed ∧
      (pool'.statobjs choice).valSize = size)
    (others : ∀ other, other ≠ choice → pool'.statobjs other = pool.statobjs other)
    (used : pool'.statvalsUsed = pool.statvalsUsed + size) :
    Cells pool' (Function.update place choice (.held process)) := by
  constructor
  · intro handle inside
    have below := cells.below handle inside
    rw [Function.update_apply]
    grind
  · intro handle other inside inside'
    have below := cells.below handle inside
    have below' := cells.below other inside'
    have apart := cells.apart handle other inside inside'
    simp only [Function.update_apply, TStatObj.Apart] at apart ⊢
    grind

theorem alloc_sound (sound : system.Sound)
    (at_alloc : system.phase process = .allocating call type types)
    (room : system.pool.allocRefused call.valSize = false) :
    ∃ choice pool, system.pool.allocStatobj call.valSize = some (choice, pool) ∧
      ({ system with pool := pool }.goTo process
        (.initialising call type types choice)).Sound := by
  obtain ⟨lists, place, holds⟩ := sound
  simp only [TStatPool.allocRefused, decide_eq_false_iff_not, not_or, not_lt, ge_iff_le, not_le]
    at room
  have used := holds.layout.used
  have first := holds.layout.chain none
  cases lists_eq : lists none with
  | nil =>
      simp [lists_eq] at used
      omega
  | cons choice rest =>
      rw [lists_eq] at first
      obtain ⟨inside, is_free⟩ := (holds.layout.mem_iff none choice).1 (by simp [lists_eq])
      have not_mem : ∀ bucket, choice ∉ lists (some bucket) := by
        simp [holds.layout.mem_iff, is_free]
      have freelist_eq : system.pool.freelist = some choice := first.1
      have there : ∀ handle, handle ≠ choice → _ = system.pool.statobjs handle := fun handle ne =>
        Function.update_of_ne ne
          { system.pool.statobjs choice with
            valSize := call.valSize, valOffset := system.pool.statvalsUsed } system.pool.statobjs
      have agree : ∀ handle, handle ≠ choice → _ ∧
          Function.update place choice (.held process) handle = place handle := fun handle ne =>
        ⟨there handle ne, Function.update_of_ne ne ..⟩
      have lists_eq' : ∀ bucket,
          Function.update lists none rest (some bucket) = lists (some bucket) :=
        fun bucket => Function.update_of_ne (by simp) ..
      have kept : ∀ bucket, ∀ handle ∈ lists (some bucket), _ := fun bucket handle member =>
        there handle (ne_of_mem_of_not_mem member (not_mem bucket))
      have working := holds.relies process
      rw [at_alloc] at working
      refine ⟨choice, _, by rw [TStatPool.allocStatobj, freelist_eq],
        Function.update lists none rest, Function.update place choice (.held process), ?_⟩
      refine holds.advance rfl (holds.layout.alloc lists_eq ?_ rfl rfl rfl)
        (holds.cells.alloc room.1 ?_ there rfl) (holds.content.congr lists_eq' kept) ?_ ?_ ?_
      · funext handle
        simp only [TStatPool.link, StatSystem.goTo, TStatPool.setObj, Function.update_apply]
        split
        · subst handle
          rfl
        · rfl
      · simp [StatSystem.goTo, TStatPool.setObj]
      · exact ⟨Working.congr working (lists_eq' _) (kept _), inside, Function.update_self ..⟩
      · exact fun other _ => (holds.relies other).congr (fun _ _ => lists_eq' _) not_mem
          (by simp [is_free]) agree
      · exact holds.apart_of_call (by simp [at_alloc, StatPhase.call])

/-! ## Initialisation and insertion -/

theorem init_sound (sound : system.Sound)
    (at_init : system.phase process = .initialising call type types choice) :
    ({ system with pool := system.pool.objInit choice call.id type }.goTo process
      (.inserting call type types choice)).Sound := by
  obtain ⟨lists, place, holds⟩ := sound
  have relies := holds.relies process
  rw [at_init] at relies
  obtain ⟨working, inside, held⟩ := relies
  have not_mem := holds.layout.not_mem held
  have here : (system.pool.objInit choice call.id type).statobjs choice =
      { system.pool.statobjs choice with id := call.id, type := type, next := none } := by
    simp [TStatPool.objInit, TStatPool.setObj,
      List.take_of_length_le (Nat.le_sub_one_of_lt working.short)]
  have there : ∀ handle, handle ≠ choice →
      (system.pool.objInit choice call.id type).statobjs handle = system.pool.statobjs handle :=
    fun handle ne => Function.update_of_ne ne ..
  have kept : ∀ list, ∀ handle ∈ lists list,
      (system.pool.objInit choice call.id type).statobjs handle = system.pool.statobjs handle :=
    fun list handle member => there handle (ne_of_mem_of_not_mem member (not_mem list))
  refine ⟨lists, place, holds.advance rfl { holds.layout with chain := fun list => ?_ }
    (holds.cells.congr rfl (fun _ => Iff.rfl) fun handle => ?_)
    (holds.content.congr (fun _ => rfl) fun bucket => kept (some bucket)) ?_ ?_ ?_⟩
  · refine Chain.congr ?_ fun handle member => congrArg TStatObj.next (kept list handle member)
    cases list with
    | none => exact holds.layout.chain none
    | some bucket => exact holds.layout.chain (some bucket)
  · by_cases same : handle = choice
    · subst same
      simp [StatSystem.goTo, here]
    · simp [StatSystem.goTo, there handle same]
  · exact ⟨working.congr rfl (kept _), inside, held, congrArg TStatObj.id here,
      congrArg TStatObj.type here⟩
  · refine fun other ne => (holds.relies other).congr (fun _ _ => rfl)
      (fun bucket => not_mem (some bucket)) ?_ fun handle ne => ⟨there handle ne, rfl⟩
    rw [held]
    exact fun same => ne (StatPlace.held.inj same).symm
  · exact holds.apart_of_call (by simp [at_init, StatPhase.call])

theorem insertStatobj_self (pool : TStatPool) (choice : Nat) :
    (pool.insertStatobj choice).statobjs choice =
      { pool.statobjs choice with next := pool.bucket (hashid (pool.statobjs choice).id) } :=
  Function.update_self ..

theorem insertStatobj_of_ne (pool : TStatPool) (ne : handle ≠ choice) :
    (pool.insertStatobj choice).statobjs handle = pool.statobjs handle :=
  Function.update_of_ne ne ..

/-- `insert_statobj` changes only `next_`. -/
theorem insert_obj (pool : TStatPool) (choice handle : Nat) :
    ((pool.insertStatobj choice).statobjs handle).id = (pool.statobjs handle).id ∧
    ((pool.insertStatobj choice).statobjs handle).type = (pool.statobjs handle).type ∧
    ((pool.insertStatobj choice).statobjs handle).valOffset = (pool.statobjs handle).valOffset ∧
    ((pool.insertStatobj choice).statobjs handle).valSize = (pool.statobjs handle).valSize := by
  by_cases same : handle = choice
  · subst same
    simp [insertStatobj_self]
  · simp [insertStatobj_of_ne pool same]

/-- The lists after an object was put into a bucket. -/
def pushed (lists : Option Nat → List Nat) (bucket choice : Nat) : Option Nat → List Nat :=
  Function.update lists (some bucket) (choice :: lists (some bucket))

theorem Layout.insert (layout : Layout pool lists place) (inside : choice < defaultStatobjNum)
    (held : place choice = .held process) :
    Layout (pool.insertStatobj choice) (pushed lists (hashid (pool.statobjs choice).id) choice)
      (Function.update place choice (.listed (some (hashid (pool.statobjs choice).id)))) := by
  have link_eq : (pool.insertStatobj choice).link = Function.update pool.link choice
      (pool.bucket (hashid (pool.statobjs choice).id)) := by
    funext handle
    rw [Function.update_apply]
    split
    · subst handle
      rw [TStatPool.link, insertStatobj_self]
    · rename_i ne
      rw [TStatPool.link, insertStatobj_of_ne _ ne, TStatPool.link]
  have not_mem := layout.not_mem held
  constructor
  · intro list
    rw [link_eq]
    by_cases same : list = some (hashid (pool.statobjs choice).id)
    · subst same
      have head_eq : (pool.insertStatobj choice).head (some (hashid (pool.statobjs choice).id)) =
          some choice := by
        simp [TStatPool.head, TStatPool.insertStatobj]
      rw [pushed, Function.update_self, head_eq]
      exact (layout.chain (some _)).push (not_mem _)
    · have head_eq : (pool.insertStatobj choice).head list = pool.head list := by
        cases list with
        | none => rfl
        | some bucket => exact Function.update_of_ne (fun equal => same (congrArg some equal)) ..
      rw [pushed, Function.update_of_ne same, head_eq]
      exact (layout.chain list).update (not_mem list)
  · exact (Function.forall_update_iff lists fun _ nodes => nodes.Nodup).2
      ⟨List.nodup_cons.2 ⟨not_mem _, layout.nodup _⟩, fun list _ => layout.nodup list⟩
  · intro list handle
    have before := layout.mem_iff list handle
    have was_held := not_mem list
    simp only [pushed, Function.update_apply]
    grind
  · rw [pushed, Function.update_of_ne (by simp)]
    exact layout.used

/-- An object of the id is put before the objects of the id, which are the first ones. -/
theorem Content.insert (content : Content pool registered lists)
    (working : Working pool lists call (type :: types))
    (written : (pool.statobjs choice).id = call.id ∧ (pool.statobjs choice).type = type)
    (not_mem : ∀ list, choice ∉ lists list) :
    Content (pool.insertStatobj choice) (⟨call.id, type, choice⟩ :: registered)
      (pushed lists (hashid call.id) choice) := by
  constructor
  · intro bucket handle member
    have before := content.bucket bucket handle
    rw [(insert_obj ..).1]
    simp only [pushed, Function.update_apply] at member
    grind
  · intro bucket id
    rw [ofId_congr fun handle _ => (insert_obj pool choice handle).1]
    have before := content.grouped bucket id
    rw [pushed, Function.update_apply]
    split
    · rename_i same
      cases same
      rw [TStatPool.ofId, List.filter_cons]
      split
      · rename_i same
        obtain rfl : call.id = id := written.1.symm.trans (of_decide_eq_true same)
        exact ((List.prefix_cons_inj choice).2 working.front).isInfix
      · exact List.infix_cons before
    · exact before
  · intro id type' handle
    have before := content.mem_iff id type' handle
    have absent := not_mem (some (hashid id))
    rw [List.mem_cons, (insert_obj ..).1, (insert_obj ..).2.1]
    simp only [pushed, Function.update_apply, Registered.mk.injEq]
    grind
  · refine List.nodup_cons.2 ⟨fun member => ?_, content.unique⟩
    obtain ⟨⟨id, type', handle⟩, known, equal⟩ := List.mem_map.1 member
    cases equal
    obtain ⟨listed, id_eq, type_eq⟩ := (content.mem_iff _ _ handle).1 known
    exact working.fresh handle (mem_ofId.2 ⟨listed, id_eq⟩) (by simp [type_eq])

theorem Working.insert (working : Working pool lists call (type :: types))
    (written : (pool.statobjs choice).id = call.id ∧ (pool.statobjs choice).type = type) :
    Working (pool.insertStatobj choice) (pushed lists (hashid call.id) choice) call types := by
  obtain ⟨not_mem, nodup⟩ := List.nodup_cons.1 working.nodup
  have ofId_eq : (pool.insertStatobj choice).ofId call.id
      (pushed lists (hashid call.id) choice (some (hashid call.id))) =
        choice :: pool.ofId call.id (lists (some (hashid call.id))) := by
    rw [ofId_congr fun handle _ => (insert_obj pool choice handle).1, pushed, Function.update_self]
    simp [TStatPool.ofId, written.1]
  refine ⟨working.short, nodup, ?_, fun handle member => ?_⟩
  · rw [ofId_eq, pushed, Function.update_self]
    exact (List.prefix_cons_inj choice).2 working.front
  · rw [ofId_eq] at member
    rw [(insert_obj ..).2.1]
    cases List.mem_cons.1 member with
    | inl new => rwa [new, written.2]
    | inr old => exact fun in_rest => working.fresh handle old (List.mem_cons_of_mem type in_rest)

theorem insert_sound (sound : system.Sound)
    (at_insert : system.phase process = .inserting call type types choice) :
    ({ system with
      pool := system.pool.insertStatobj choice
      registered := ⟨call.id, type, choice⟩ :: system.registered }.goTo process
        (.round call types)).Sound := by
  obtain ⟨lists, place, holds⟩ := sound
  have relies := holds.relies process
  rw [at_insert] at relies
  obtain ⟨working, inside, held, written⟩ := relies
  have not_mem := holds.layout.not_mem held
  have layout := holds.layout.insert inside held
  rw [written.1] at layout
  refine ⟨_, _, holds.advance rfl layout (holds.cells.congr rfl ?_ fun handle => ?_)
    (holds.content.insert working written not_mem) (relies_round (working.insert written)) ?_ ?_⟩
  · intro handle
    rw [Function.update_apply]
    split <;> simp_all
  · exact (insert_obj ..).2.2
  · intro other ne
    refine (holds.relies other).congr ?_ (fun bucket => not_mem (some bucket)) ?_ ?_
    · intro call' in_call
      refine Function.update_of_ne (fun same => ?_) ..
      exact holds.apart other process call' call ne in_call (by rw [at_insert]; rfl)
        (Option.some.inj same)
    · rw [held]
      exact fun same => ne (StatPlace.held.inj same).symm
    · intro handle ne
      exact ⟨insertStatobj_of_ne _ ne, Function.update_of_ne ne ..⟩
  · refine holds.apart_of_call fun call' in_call => ?_
    cases round_call in_call
    rw [at_insert]
    rfl

/-! ## Runs -/

theorem step_sound (sound : system.Sound) (safe : system.Safe process call) :
    ∃ after, system.step process call = some after ∧ after.Sound := by
  unfold Safe at safe
  unfold step
  cases at_phase : system.phase process with
  | idle result =>
      rw [at_phase] at safe
      exact search_sound sound safe.1 safe.2
  | checking call type types =>
      dsimp only
      split
      · exact ⟨_, rfl, sound.exited⟩
      · exact ⟨_, rfl, sound.allocating at_phase⟩
  | allocating call type types =>
      rw [at_phase] at safe
      obtain ⟨choice, pool, allocated, after_sound⟩ := alloc_sound sound at_phase safe
      dsimp only
      rw [allocated]
      exact ⟨_, rfl, after_sound⟩
  | initialising call type types choice => exact ⟨_, rfl, init_sound sound at_phase⟩
  | inserting call type types choice => exact ⟨_, rfl, insert_sound sound at_phase⟩
  | exited => exact ⟨system, rfl, sound⟩

/-- A step that is safe. -/
def SafeStep (before after : StatSystem) : Prop :=
  ∃ process call, before.Safe process call ∧ before.step process call = some after

/-- What registration is to guarantee: the free list and the chains of the buckets end, have no
object twice and no object in common; objects that are not free have their own value cells; no type
of an id is registered twice; and `step` reaches the objects that were registered under its id, each
once, and no other ones. -/
structure Correct (system : StatSystem) : Prop where
  lists : ∃ (free : List Nat) (chains : Nat → List Nat),
    (Chain system.pool.link system.pool.freelist free ∧ free.Nodup) ∧
    (∀ bucket, Chain system.pool.link (system.pool.bucket bucket) (chains bucket) ∧
      (chains bucket).Nodup ∧ List.Disjoint free (chains bucket)) ∧
    (∀ bucket other, bucket ≠ other → List.Disjoint (chains bucket) (chains other)) ∧
    ∀ handle other, handle < defaultStatobjNum → other < defaultStatobjNum → handle ∉ free →
      other ∉ free → handle ≠ other →
        (system.pool.statobjs handle).Apart (system.pool.statobjs other)
  unique : (system.registered.map fun entry => (entry.id, entry.type)).Nodup
  reached : ∀ id, ∃ visited, system.pool.step0 id = some visited ∧ visited.Nodup ∧
    ∀ handle, handle ∈ visited ↔ ∃ type, ⟨id, type, handle⟩ ∈ system.registered

/-- `step0` reaches the objects of an id, which follow each other. -/
theorem step0_eq (layout : Layout pool lists place)
    (grouped : pool.ofId id (lists (some (hashid id))) <:+: lists (some (hashid id))) :
    pool.step0 id = some (pool.ofId id (lists (some (hashid id)))) := by
  have found := layout.findStatobj_eq id
  have chain := layout.chain (some (hashid id))
  have short := layout.length_le (some (hashid id))
  obtain ⟨before, rest, split⟩ := grouped
  have same : pool.ofId id (pool.ofId id (lists (some (hashid id)))) =
      pool.ofId id (lists (some (hashid id))) := by
    simp [TStatPool.ofId]
  generalize group_eq : pool.ofId id (lists (some (hashid id))) = group at found split same ⊢
  rw [← split] at group_eq chain short
  have counted := congrArg List.length group_eq
  simp only [TStatPool.ofId] at same counted
  simp only [List.filter_append, List.length_append, same] at counted
  have differ : ∀ handle ∈ rest, ¬(pool.statobjs handle).id = id := by
    have none_rest : rest.filter (fun handle => (pool.statobjs handle).id = id) = [] :=
      List.length_eq_zero_iff.1 (by omega)
    simpa using none_rest
  have walked : pool.stepLoop id (defaultStatobjNum + 1) group.head? = some group := by
    cases group with
    | nil => rfl
    | cons first group =>
        rw [List.append_assoc] at chain short
        have taken : pool.stepLoop id (defaultStatobjNum + 1) (some first) = some _ :=
          stepLoop_eq chain.drop (by simp at short ⊢; omega)
        rw [List.takeWhile_append_of_pos (by simpa using same)] at taken
        cases rest with
        | nil => simpa using taken
        | cons node rest => simpa [differ node] using taken
  simp [TStatPool.step0, TStatPool.step, found, walked]

theorem Sound.correct (sound : system.Sound) : system.Correct := by
  obtain ⟨lists, place, layout, cells, content, -, -⟩ := sound
  refine ⟨⟨lists none, fun bucket => lists (some bucket), ⟨layout.chain none, layout.nodup none⟩,
    fun bucket => ⟨layout.chain (some bucket), layout.nodup _, ?_⟩, ?_, ?_⟩, content.unique, ?_⟩
  · simp only [List.Disjoint, layout.mem_iff]
    grind
  · simp only [List.Disjoint, layout.mem_iff]
    grind
  · intro handle other inside inside'
    simp only [layout.mem_iff, inside, inside', true_and]
    exact cells.apart handle other inside inside'
  · intro id
    refine ⟨_, step0_eq layout (content.grouped _ id), (layout.nodup _).filter _, fun handle => ?_⟩
    simp [mem_ofId, content.mem_iff]

theorem chain_newpool (start count : Nat) (sum : start + count + 1 = defaultStatobjNum) :
    Chain TStatPool.newpool.link (some start) (List.range' start (count + 1)) := by
  induction count generalizing start with
  | zero =>
      refine ⟨rfl, ?_⟩
      exact if_neg (by omega)
  | succ count induction =>
      rw [List.range'_succ]
      refine ⟨rfl, ?_⟩
      rw [show TStatPool.newpool.link start = some (start + 1) from if_pos (by omega)]
      exact induction (start + 1) (by omega)

theorem init_sound_newpool : init.Sound := by
  refine ⟨fun list => if list = none then List.range' 0 defaultStatobjNum else [],
    fun _ => .listed none, ?_, ?_, ?_, fun _ => trivial, by simp [init, StatPhase.call]⟩
  · constructor
    · intro list
      cases list with
      | none => exact chain_newpool 0 199 rfl
      | some bucket => rfl
    · intro list
      split
      · exact List.nodup_range'
      · exact List.nodup_nil
    · intro list handle
      cases list <;> simp
    · simp [init, TStatPool.newpool]
  · constructor <;> simp
  · constructor <;> simp [TStatPool.ofId, init]

/-- In every run whose steps meet the condition registration keeps what it is to guarantee, and
every further step that meets it is possible. -/
theorem safeRun_registered (run : Relation.ReflTransGen SafeStep init system) :
    system.Correct ∧ ∀ process call, system.Safe process call →
      (system.step process call).isSome = true := by
  have sound : system.Sound := by
    induction run with
    | refl => exact init_sound_newpool
    | tail earlier last induction =>
        obtain ⟨process, call, safe, stepped⟩ := last
        obtain ⟨after, after_eq, sound⟩ := step_sound induction safe
        cases stepped.symm.trans after_eq
        exact sound
  refine ⟨sound.correct, fun process call safe => ?_⟩
  obtain ⟨after, after_eq, -⟩ := step_sound sound safe
  rw [after_eq]
  rfl

/-- Steps of processes, each with the arguments of a call that it may begin. -/
def play (system : StatSystem) : (moves : List (Nat × StatCall)) → Option StatSystem
  | [] => some system
  | (process, call) :: moves => (system.step process call).bind fun after => after.play moves

theorem play_reached {moves : List (Nat × StatCall)} (played : system.play moves = some after) :
    Relation.ReflTransGen Step system after := by
  induction moves generalizing system with
  | nil =>
      cases played
      exact .refl
  | cons move moves induction =>
      obtain ⟨middle, stepped, rest⟩ := Option.bind_eq_some_iff.1 played
      exact .head ⟨move.1, move.2, stepped⟩ (induction rest)

/-- `init_statobj("a", STAT_TYPE_SUM)` -/
def sumA : StatCall := ⟨[97], 1, 1⟩

/-- `init_statobj("a", STAT_TYPE_SUM | STAT_TYPE_AVG)` -/
def sumAvgA : StatCall := ⟨[97], 3, 1⟩

/-- `init_statobj("b", STAT_TYPE_SUM)`, an id of another bucket. -/
def sumB : StatCall := ⟨[98], 1, 1⟩

/-- `init_statobj("eb", STAT_TYPE_SUM)`, an id of the same bucket. -/
def sumEb : StatCall := ⟨[101, 98], 1, 1⟩

/-! ## Runs that meet the condition -/

/-- The condition, if only the first `count` processes run. -/
def safeAmong (count : Nat) (system : StatSystem) (process : Nat) (call : StatCall) : Bool :=
  match system.phase process with
  | .idle _ =>
      call.id.length < statIdMaxLen && (List.range count).all fun other =>
        other == process ||
          (system.phase other).call.all fun call' => hashid call.id != hashid call'.id
  | .allocating call _ _ => !system.pool.allocRefused call.valSize
  | _ => true

/-- Steps of the first `count` processes that all meet the condition. -/
def playSafe (count : Nat) (system : StatSystem) : (moves : List (Nat × StatCall)) →
    Option StatSystem
  | [] => some system
  | (process, call) :: moves =>
      if process < count ∧ safeAmong count system process call then
        (system.step process call).bind fun after => after.playSafe count moves
      else
        none

theorem step_phase_of_ne {other : Nat} (stepped : system.step process call = some after)
    (ne : other ≠ process) : after.phase other = system.phase other := by
  unfold step search at stepped
  repeat' split at stepped
  all_goals cases stepped
  all_goals first | rfl | exact Function.update_of_ne ne _ _

theorem safe_of_safeAmong {count : Nat}
    (quiet : ∀ other, count ≤ other → (system.phase other).call = none)
    (safe : safeAmong count system process call) : system.Safe process call := by
  unfold safeAmong at safe
  unfold Safe
  split at safe
  · simp only [Bool.and_eq_true, decide_eq_true_eq, List.all_eq_true, List.mem_range,
      Bool.or_eq_true, beq_iff_eq, Option.all_eq_true, bne_iff_ne] at safe
    refine ⟨safe.1, fun other call' ne is_call => ?_⟩
    have early : other < count := by
      by_contra late
      rw [quiet other (not_lt.1 late)] at is_call
      cases is_call
    exact (safe.2 other early).resolve_left ne call' is_call
  · simpa using safe
  · trivial

theorem playSafe_reached {count : Nat} {moves : List (Nat × StatCall)}
    (quiet : ∀ other, count ≤ other → (system.phase other).call = none)
    (played : system.playSafe count moves = some after) :
    Relation.ReflTransGen SafeStep system after := by
  induction moves generalizing system with
  | nil =>
      cases played
      exact .refl
  | cons move moves induction =>
      rw [playSafe] at played
      split at played
      · rename_i meets
        obtain ⟨middle, stepped, rest⟩ := Option.bind_eq_some_iff.1 played
        refine .head ⟨move.1, move.2, safe_of_safeAmong quiet meets.2, stepped⟩
          (induction (fun other late => ?_) rest)
        rw [step_phase_of_ne stepped (by omega)]
        exact quiet other late
      · cases played

/-- Two processes register the ids "a" and "b" at the same time, then one of them "eb". -/
def threeIds : List (Nat × StatCall) :=
  [(0, sumAvgA), (1, sumB), (0, sumAvgA), (1, sumB), (0, sumAvgA), (1, sumB), (1, sumB),
  (1, sumB)] ++
    List.replicate 6 (0, sumAvgA) ++ List.replicate 5 (1, sumEb)

theorem threeIds_isSome : (init.playSafe 2 threeIds).isSome = true := by decide

/-- Four objects are registered, and `step0("a")` reaches the two of its id. -/
theorem threeIds_registered :
    ∃ system : StatSystem, system.Correct ∧
      system.registered =
        [⟨[101, 98], 1, 3⟩, ⟨[97], 2, 2⟩, ⟨[97], 1, 0⟩, ⟨[98], 1, 1⟩] ∧
      system.pool.step0 [97] = some [2, 0] := by
  have run := playSafe_reached (fun _ _ => rfl) (Option.some_get threeIds_isSome).symm
  exact ⟨_, (safeRun_registered run).1, by decide, by decide⟩

/-! ## Processes that register ids of one bucket at the same time -/

/-- Two processes register the same id; the search of the second one is before the insertion of the
first one. -/
def twice : List (Nat × StatCall) :=
  [(0, sumA), (1, sumA)] ++ List.replicate 4 (0, sumA) ++ List.replicate 4 (1, sumA)

/-- A process inserts an object of another id of the bucket between two objects of an id. -/
def parted : List (Nat × StatCall) :=
  [(0, sumAvgA), (1, sumEb)] ++ List.replicate 4 (0, sumAvgA) ++ List.replicate 4 (1, sumEb) ++
    List.replicate 4 (0, sumAvgA)

theorem twice_isSome : (init.play twice).isSome = true := by decide

theorem parted_isSome : (init.play parted).isSome = true := by decide

/-- Two processes that register one id both succeed, and it has two objects of one type.  An object
of another id parts the objects of an id, and `step` reaches only one of them. -/
theorem stepRun_registered_wrong :
    (∃ system, Relation.ReflTransGen Step init system ∧
      ¬ (system.registered.map fun entry => (entry.id, entry.type)).Nodup) ∧
    ∃ system, Relation.ReflTransGen Step init system ∧
      system.registered = [⟨[97], 2, 2⟩, ⟨[101, 98], 1, 1⟩, ⟨[97], 1, 0⟩] ∧
      system.pool.step0 [97] = some [2] := by
  refine ⟨⟨(init.play twice).get twice_isSome, play_reached (Option.some_get _).symm, ?_⟩,
    (init.play parted).get parted_isSome, play_reached (Option.some_get _).symm, ?_, ?_⟩
  · decide
  · decide
  · decide

end StatSystem

end Spp
