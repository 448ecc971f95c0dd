import Spp.Comm.StatPolicy
import Spp.Comm.StatRun

/-!
# What the statistics show

One process registers ids with `init_statobj` and reports values with `step0`; `travel` visits the
objects of all buckets.  The abstract state has for each id the types it is registered with and the
values that were reported since then.

An object has one value cell (`val_size` 1).  The process may exit when the pool is full.
-/

namespace Spp

open LinkedChain

namespace TStatPool

/-- A round of `init_statobj`, after the look at the capacity. -/
def initRound (pool : TStatPool) (call : StatCall) (type : Nat) : Option TStatPool :=
  (pool.allocStatobj call.valSize).map fun (choice, pool) =>
    (pool.objInit choice call.id type).insertStatobj choice

/-- The loop of `init_statobj`; the inner option is empty if the process exits. -/
def initLoop (call : StatCall) : (types : List Nat) → TStatPool → Option (Option TStatPool)
  | [], pool => some (some pool)
  | type :: types, pool =>
      if pool.allocRefused call.valSize then some none
      else (pool.initRound call type).bind (initLoop call types)

/-- `init_statobj`: what it returns, and the pool after it. -/
def initStatobj (pool : TStatPool) (call : StatCall) : Option (Option (Int × TStatPool)) :=
  match pool.findStatobj call.id none with
  | none => none
  | some .exits => some none
  | some (.handle (some _)) => some (some (errStatExist, pool))
  | some (.handle none) => (initLoop call call.types pool).map (Option.map fun pool => (0, pool))

/-- The inner loop of `travel`: the objects that it visits. -/
def travelLoop (pool : TStatPool) : (rounds : Nat) → Option Nat → Option (List Nat)
  | 0, _ => none
  | _ + 1, none => some []
  | rounds + 1, some next => (pool.travelLoop rounds (pool.statobjs next).next).map (next :: ·)

/-- The loop over the buckets. -/
def travelBuckets (pool : TStatPool) : (buckets : List Nat) → Option (List Nat)
  | [] => some []
  | bucket :: buckets => do
      let visited ← pool.travelLoop (defaultStatobjNum + 1) (pool.bucket bucket)
      let rest ← pool.travelBuckets buckets
      return visited ++ rest

/-- `travel`: the objects that it visits. -/
def travel (pool : TStatPool) : Option (List Nat) := pool.travelBuckets (List.range bucketNum)

end TStatPool

/-- `CTStat`: the pool, with the counts and the value cells. -/
structure CTStat where
  pool : TStatPool
  count : Nat → Int
  statvals : Int → Int

/-- The calls of one process. -/
inductive StatEvent
  | initStatobj (call : StatCall)
  | step0 (id : CStr) (val : Int)

namespace CTStat

/-- No object yet. -/
def init : CTStat := ⟨.newpool, fun _ => 0, fun _ => 0⟩

/-- A step of one object. -/
def stepObj (val : Int) (stat : CTStat) (choice : Nat) : CTStat :=
  let obj := stat.pool.statobjs choice
  { stat with
    count := Function.update stat.count choice (i32 (stat.count choice + 1))
    statvals := Function.update stat.statvals obj.valOffset
      (StatPolicy.step obj.type (stat.statvals obj.valOffset) val) }

/-- A call: what it returns and the statistics after it, unless the process exits. -/
def perform (stat : CTStat) : StatEvent → Option (Option (Int × CTStat))
  | .initStatobj call =>
      (stat.pool.initStatobj call).map (Option.map fun (ret, pool) => (ret, { stat with pool }))
  | .step0 id val =>
      (stat.pool.step0 id).map fun visited => some (0, visited.foldl (stepObj val) stat)

/-- The calls, one after the other. -/
def run : (events : List StatEvent) → CTStat → Option (Option CTStat)
  | [], stat => some (some stat)
  | event :: events, stat =>
      (stat.perform event).bind fun
        | none => some none
        | some (_, after) => run events after

end CTStat

/-! ## What is to be shown -/

/-- For each id the types it is registered with, and the values since then. -/
abbrev Reported := CStr → Option (List Nat × List Int)

/-- A registration of a new id, or a value for a registered one. -/
def Reported.next (reported : Reported) : StatEvent → Reported
  | .initStatobj call =>
      if (reported call.id).isSome ∨ call.types = [] then reported
      else Function.update reported call.id (some (call.types, []))
  | .step0 id val =>
      Function.update reported id ((reported id).map fun (types, vals) => (types, vals ++ [val]))

/-- What the calls report. -/
def reportedBy (events : List StatEvent) : Reported := events.foldl Reported.next fun _ => none

namespace CTStat

/-- An object shows the number of values and the value of its policy; without values there is only
that of the policies `Sum` and `Count`. -/
def Shows (stat : CTStat) (choice type : Nat) (vals : List Int) : Prop :=
  let shown := StatPolicy.result type (stat.count choice)
    [stat.statvals (stat.pool.statobjs choice).valOffset]
  shown.1 = vals.length ∧
    (vals ≠ [] ∨ type = 1 ∨ type = 16 →
      ∃ value, shown.2 = [value] ∧ StatPolicy.Expected type vals value)

/-- `travel` visits one object for each type of an id, and it shows what was reported. -/
def Right (stat : CTStat) (reported : Reported) : Prop :=
  ∃ visited, stat.pool.travel = some visited ∧ visited.Nodup ∧
    ∀ id types vals, reported id = some (types, vals) → ∀ type ∈ types, ∃ choice,
      (∀ handle, handle ∈ visited ∧ (stat.pool.statobjs handle).id = id ∧
        (stat.pool.statobjs handle).type = type ↔ handle = choice) ∧ stat.Shows choice type vals

/-! ## The invariant -/

/-- Only one process runs. -/
def alone (pool : TStatPool) (phase : StatPhase) (registered : List Registered) : StatSystem :=
  ⟨pool, Function.update (fun _ => .idle 0) 0 phase, registered⟩

/-- The objects are those of the abstract state, with their values; other counts and cells are
zero. -/
structure Keeps (phase : StatPhase) (stat : CTStat) (reported : Reported)
    (registered : List Registered) : Prop where
  sound : (alone stat.pool phase registered).Sound
  valSize : ∀ entry ∈ registered, (stat.pool.statobjs entry.choice).valSize = 1
  known : ∀ id type, (∃ choice, ⟨id, type, choice⟩ ∈ registered) ↔
    ∃ types vals, reported id = some (types, vals) ∧ type ∈ types
  values : ∀ entry ∈ registered, ∀ types vals, reported entry.id = some (types, vals) →
    stat.count entry.choice = i32 vals.length ∧
      stat.statvals (stat.pool.statobjs entry.choice).valOffset =
        StatPolicy.cellAfter entry.type vals
  fresh_count : ∀ choice, (∀ entry ∈ registered, entry.choice ≠ choice) → stat.count choice = 0
  fresh_cell : ∀ offset, (∀ entry ∈ registered,
    (stat.pool.statobjs entry.choice).valOffset ≠ offset) → stat.statvals offset = 0

variable {entry other : Registered} {visited : List Nat} {choice : Nat} {vals : List Int}
  {first second : Int}

section Registration

variable {pool : TStatPool} {registered : List Registered} {phase phase' : StatPhase}
  {call : StatCall} {type : Nat} {types : List Nat}

theorem alone_goTo :
    (alone pool phase registered).goTo 0 phase' = alone pool phase' registered := by
  rw [StatSystem.goTo, alone, alone, Function.update_idem]

theorem alone_phase : (alone pool phase registered).phase 0 = phase := by
  simp only [alone, Function.update_self]

theorem travelLoop_eq {start : Option Nat} {nodes : List Nat} (chain : Chain pool.link start nodes)
    {rounds : Nat} (enough : nodes.length < rounds) :
    pool.travelLoop rounds start = some nodes := by
  induction nodes generalizing start rounds with
  | nil =>
      obtain ⟨rounds, rfl⟩ := Nat.exists_eq_succ_of_ne_zero (Nat.ne_zero_of_lt enough)
      cases chain
      rfl
  | cons node nodes induction =>
      obtain ⟨rounds, rfl⟩ := Nat.exists_eq_succ_of_ne_zero (Nat.ne_zero_of_lt enough)
      obtain ⟨rfl, chain⟩ := chain
      exact congrArg (Option.map _) (induction chain (Nat.lt_of_succ_lt_succ enough))

theorem travelBuckets_eq {chains : Nat → List Nat} {buckets : List Nat}
    (walks : ∀ bucket, pool.travelLoop (defaultStatobjNum + 1) (pool.bucket bucket) =
      some (chains bucket)) : pool.travelBuckets buckets = some (buckets.flatMap chains) := by
  induction buckets with
  | nil => rfl
  | cons bucket buckets induction =>
      rw [TStatPool.travelBuckets, walks, induction]
      rfl

theorem travel_registered (sound : (alone pool phase registered).Sound) :
    ∃ visited, pool.travel = some visited ∧ visited.Nodup ∧
      ∀ id type choice, ⟨id, type, choice⟩ ∈ registered ↔
        choice ∈ visited ∧ (pool.statobjs choice).id = id ∧ (pool.statobjs choice).type = type := by
  obtain ⟨lists, place, layout, cells, content, -, -⟩ := sound
  refine ⟨(List.range bucketNum).flatMap fun bucket => lists (some bucket), ?_, ?_,
    fun id type choice => ?_⟩
  · exact travelBuckets_eq fun bucket =>
      travelLoop_eq (layout.chain (some bucket)) (Nat.lt_succ_of_le (layout.length_le _))
  · refine List.nodup_flatMap.2 ⟨fun bucket _ => layout.nodup _, ?_⟩
    refine List.nodup_range.imp fun {bucket other} ne handle member member' => ne ?_
    have listed := ((layout.mem_iff _ handle).1 member).2
    simpa [((layout.mem_iff _ handle).1 member').2] using listed.symm
  · refine (content.mem_iff id type choice).trans ⟨?_, ?_⟩
    · rintro ⟨member, id_eq, type_eq⟩
      refine ⟨List.mem_flatMap.2 ⟨hashid id, ?_, member⟩, id_eq, type_eq⟩
      exact List.mem_range.2 (Nat.mod_lt _ (by decide))
    · rintro ⟨member, id_eq, type_eq⟩
      obtain ⟨bucket, -, member⟩ := List.mem_flatMap.1 member
      have bucket_eq : hashid (pool.statobjs choice).id = bucket :=
        content.bucket bucket choice member
      rw [← id_eq, bucket_eq]
      exact ⟨member, rfl, type_eq⟩

theorem offset_ne (sound : (alone pool phase registered).Sound) (member : entry ∈ registered)
    (member' : other ∈ registered) (size : (pool.statobjs entry.choice).valSize = 1)
    (size' : (pool.statobjs other.choice).valSize = 1) (ne : entry.choice ≠ other.choice) :
    (pool.statobjs entry.choice).valOffset ≠ (pool.statobjs other.choice).valOffset := by
  obtain ⟨lists, place, layout, cells, content, -, -⟩ := sound
  have listed := (layout.mem_iff _ _).1 ((content.mem_iff _ _ _).1 member).1
  have listed' := (layout.mem_iff _ _).1 ((content.mem_iff _ _ _).1 member').1
  have apart := cells.apart entry.choice other.choice listed.1 listed'.1 (by simp [listed.2])
    (by simp [listed'.2]) ne
  simp only [TStatObj.Apart, alone] at apart
  omega

theorem findStatobj_registered (sound : (alone pool phase registered).Sound) (id : CStr) :
    ∃ choice, pool.findStatobj id none = some (.handle choice) ∧
      (choice = none ↔ ∀ type handle, ⟨id, type, handle⟩ ∉ registered) := by
  obtain ⟨lists, place, layout, cells, content, -, -⟩ := sound
  refine ⟨_, layout.findStatobj_eq id, ?_⟩
  have registered_iff : ∀ type handle, ⟨id, type, handle⟩ ∈ registered ↔ _ := content.mem_iff id
  rw [List.head?_eq_none_iff, List.eq_nil_iff_forall_not_mem]
  simp only [mem_ofId, registered_iff]
  grind

theorem initRound_sound (sound : (alone pool (.checking call type types) registered).Sound)
    (room : pool.allocRefused call.valSize = false) :
    ∃ choice after, pool.initRound call type = some after ∧
      (alone after (.round call types) (⟨call.id, type, choice⟩ :: registered)).Sound ∧
      (∀ entry ∈ registered, entry.choice ≠ choice) ∧
      (∀ handle ≠ choice, after.statobjs handle = pool.statobjs handle) ∧
      (after.statobjs choice).valSize = call.valSize := by
  have allocating : (alone pool (.allocating call type types) registered).Sound := by
    rw [← alone_goTo]
    exact sound.allocating alone_phase
  obtain ⟨choice, middle, allocated, initialising⟩ :=
    StatSystem.alloc_sound allocating alone_phase room
  replace allocated : pool.allocStatobj call.valSize = some (choice, middle) := allocated
  have inserting := StatSystem.init_sound initialising (StatSystem.goTo_self ..)
  have done := StatSystem.insert_sound inserting (StatSystem.goTo_self ..)
  have changed : middle.statobjs = Function.update pool.statobjs choice
      { pool.statobjs choice with valSize := call.valSize, valOffset := pool.statvalsUsed } := by
    rw [TStatPool.allocStatobj] at allocated
    split at allocated
    · cases allocated
    · cases allocated
      rfl
  refine ⟨choice, _, by rw [TStatPool.initRound, allocated]; rfl, ?_, fun entry member same => ?_,
    fun handle ne => ?_, ?_⟩
  · convert done using 1
    simp only [StatSystem.goTo, alone, Function.update_idem]
  · obtain ⟨lists, place, layout, cells, content, relies, -⟩ := initialising
    have held := relies 0
    rw [StatSystem.goTo_self] at held
    exact layout.not_mem held.2.2 _ (same ▸ ((content.mem_iff _ _ _).1 member).1)
  · rw [StatSystem.insertStatobj_of_ne _ ne, TStatPool.objInit, TStatPool.setObj, changed]
    simp only [Function.update_of_ne ne]
  · rw [StatSystem.insertStatobj_self, TStatPool.objInit, TStatPool.setObj, changed]
    simp only [Function.update_self]

end Registration

variable {stat : CTStat} {reported : Reported} {registered : List Registered} {call : StatCall}
  {type : Nat} {types done : List Nat}

theorem Keeps.round (keeps : Keeps (.checking call type types) stat reported registered)
    (size : call.valSize = 1) (at_id : reported call.id = some (done, []))
    (room : stat.pool.allocRefused call.valSize = false) :
    ∃ choice after, stat.pool.initRound call type = some after ∧
      Keeps (.round call types) { stat with pool := after }
        (Function.update reported call.id (some (done ++ [type], [])))
        (⟨call.id, type, choice⟩ :: registered) := by
  obtain ⟨choice, after, returned, sound, new, same, new_size⟩ := initRound_sound keeps.sound room
  have kept : ∀ entry ∈ registered, after.statobjs entry.choice = stat.pool.statobjs entry.choice :=
    fun entry member => same _ (new entry member)
  have old_size : ∀ entry ∈ registered, (after.statobjs entry.choice).valSize = 1 :=
    fun entry member => by rw [kept entry member, keeps.valSize entry member]
  have new_cell : ∀ entry ∈ registered,
      (after.statobjs entry.choice).valOffset ≠ (after.statobjs choice).valOffset :=
    fun entry member => offset_ne sound (List.mem_cons_of_mem _ member) List.mem_cons_self
      (old_size entry member) (new_size.trans size) (new entry member)
  refine ⟨choice, after, returned, sound, ?_, fun id type' => ?_, ?_, ?_, fun offset others => ?_⟩
  · exact List.forall_mem_cons.2 ⟨new_size.trans size, old_size⟩
  · have known := keeps.known id type'
    simp only [Function.update_apply, List.mem_cons, Registered.mk.injEq]
    grind
  · refine List.forall_mem_cons.2 ⟨fun types' vals at_new => ?_,
      fun entry member types' vals at_old => ?_⟩
    · rw [Function.update_self] at at_new
      cases at_new
      refine ⟨keeps.fresh_count choice new, keeps.fresh_cell _ fun entry member => ?_⟩
      rw [← kept entry member]
      exact new_cell entry member
    · rw [kept entry member]
      have values := keeps.values entry member
      rw [Function.update_apply] at at_old
      grind
  · exact fun handle others => keeps.fresh_count handle (List.forall_mem_cons.1 others).2
  · refine keeps.fresh_cell offset fun entry member => ?_
    rw [← kept entry member]
    exact (List.forall_mem_cons.1 others).2 entry member

/-- The loop of `init_statobj` registers all types, or the process exits. -/
theorem Keeps.initLoop (keeps : Keeps (.round call types) stat reported registered)
    (size : call.valSize = 1) (at_id : reported call.id = some (done, [])) :
    ∃ outcome, TStatPool.initLoop call types stat.pool = some outcome ∧
      ∀ after, outcome = some after → ∃ registered',
        Keeps (.idle 0) { stat with pool := after }
          (Function.update reported call.id (some (done ++ types, []))) registered' := by
  induction types generalizing stat reported registered done with
  | nil =>
      refine ⟨_, rfl, ?_⟩
      rintro _ ⟨⟩
      refine ⟨registered, ?_⟩
      rwa [List.append_nil, ← at_id, Function.update_eq_self]
  | cons type types induction =>
      cases room : stat.pool.allocRefused call.valSize with
      | true => exact ⟨none, by rw [TStatPool.initLoop, if_pos room], by simp⟩
      | false =>
          obtain ⟨choice, after, returned, keeps⟩ := keeps.round size at_id room
          obtain ⟨outcome, looped, registers⟩ := induction keeps (Function.update_self ..)
          refine ⟨outcome, ?_, fun last is_last => ?_⟩
          · rw [TStatPool.initLoop, if_neg (by simp [room]), returned]
            exact looped
          · obtain ⟨registered', keeps⟩ := registers last is_last
            rw [Function.update_idem, List.append_assoc] at keeps
            exact ⟨registered', keeps⟩

theorem Keeps.isSome_iff (keeps : Keeps (.idle 0) stat reported registered)
    (has_types : ∀ id types vals, reported id = some (types, vals) → types ≠ []) (id : CStr) :
    (reported id).isSome ↔ ∃ type choice, ⟨id, type, choice⟩ ∈ registered := by
  simp only [keeps.known]
  constructor
  · intro known
    obtain ⟨⟨types, vals⟩, at_id⟩ := Option.isSome_iff_exists.1 known
    obtain ⟨type, member⟩ := List.exists_mem_of_ne_nil _ (has_types id types vals at_id)
    exact ⟨type, types, vals, at_id, member⟩
  · rintro ⟨type, types, vals, at_id, -⟩
    rw [at_id]
    rfl

theorem Keeps.exists_again (keeps : Keeps (.idle 0) stat reported registered)
    (has_types : ∀ id types vals, reported id = some (types, vals) → types ≠ [])
    (known : (reported call.id).isSome) :
    stat.perform (.initStatobj call) = some (some (errStatExist, stat)) := by
  obtain ⟨choice, found, absent_iff⟩ := findStatobj_registered keeps.sound call.id
  obtain ⟨type, handle, member⟩ := (keeps.isSome_iff has_types call.id).1 known
  cases choice with
  | none => exact absurd member (absent_iff.1 rfl type handle)
  | some choice => rw [perform, TStatPool.initStatobj, found]; rfl

theorem Keeps.begin (keeps : Keeps (.idle 0) stat reported registered)
    (short : call.id.length < statIdMaxLen)
    (found : stat.pool.findStatobj call.id none = some (.handle none))
    (absent : ∀ type handle, ⟨call.id, type, handle⟩ ∉ registered) :
    Keeps (.round call call.types) stat (Function.update reported call.id (some ([], [])))
      registered := by
  refine ⟨?_, keeps.valSize, fun id type => ?_, fun entry member => ?_, keeps.fresh_count,
    keeps.fresh_cell⟩
  · have no_other : ∀ other call', other ≠ 0 →
        ((alone stat.pool (.idle 0) registered).phase other).call = some call' →
          hashid call.id ≠ hashid call'.id := by
      intro other call' ne in_call
      simp only [alone, Function.update_of_ne ne] at in_call
      cases in_call
    obtain ⟨after, searched, after_sound⟩ := StatSystem.search_sound keeps.sound short no_other
    replace found : (alone stat.pool (.idle 0) registered).pool.findStatobj call.id none =
      some (.handle none) := found
    rw [StatSystem.search, found] at searched
    cases searched
    rwa [alone_goTo] at after_sound
  · have known := keeps.known id type
    rw [Function.update_apply]
    grind
  · have ne : entry.id ≠ call.id := fun same => absent entry.type entry.choice (same ▸ member)
    rw [Function.update_of_ne ne]
    exact keeps.values entry member

theorem Keeps.initStatobj (keeps : Keeps (.idle 0) stat reported registered)
    (has_types : ∀ id types vals, reported id = some (types, vals) → types ≠ [])
    (short : call.id.length < statIdMaxLen) (size : call.valSize = 1) :
    ∃ outcome, stat.perform (.initStatobj call) = some outcome ∧
      ∀ ret after, outcome = some (ret, after) → ∃ registered',
        Keeps (.idle 0) after (reported.next (.initStatobj call)) registered' := by
  by_cases known : (reported call.id).isSome
  · refine ⟨_, keeps.exists_again has_types known, ?_⟩
    rintro _ _ ⟨⟩
    rw [Reported.next, if_pos (Or.inl known)]
    exact ⟨registered, keeps⟩
  obtain ⟨choice, found, absent_iff⟩ := findStatobj_registered keeps.sound call.id
  have absent : ∀ type handle, ⟨call.id, type, handle⟩ ∉ registered := fun type handle member =>
    known ((keeps.isSome_iff has_types call.id).2 ⟨type, handle, member⟩)
  obtain rfl : choice = none := absent_iff.2 absent
  have begun := keeps.begin short found absent
  obtain ⟨outcome, looped, registers⟩ := begun.initLoop size (Function.update_self ..)
  refine ⟨outcome.map fun pool => (0, { stat with pool }), ?_, fun ret after is_after => ?_⟩
  · rw [perform, TStatPool.initStatobj, found]
    simp only [looped, Option.map_some, Option.map_map]
    rfl
  · obtain ⟨pool, is_pool, eq⟩ := Option.map_eq_some_iff.1 is_after
    cases eq
    obtain ⟨registered', keeps'⟩ := registers pool is_pool
    rw [Function.update_idem, List.nil_append] at keeps'
    rw [Reported.next]
    split
    case isTrue no_types =>
      rw [no_types.resolve_left known] at keeps' looped
      cases is_pool
      cases looped
      exact ⟨registered, keeps⟩
    case isFalse => exact ⟨registered', keeps'⟩

/-! ### Values -/

theorem foldl_stepObj_pool (val : Int) (visited : List Nat) :
    (visited.foldl (stepObj val) stat).pool = stat.pool := by
  induction visited generalizing stat with
  | nil => rfl
  | cons choice visited induction => exact induction

theorem foldl_stepObj_count (val : Int) (distinct : visited.Nodup) (choice : Nat) :
    (visited.foldl (stepObj val) stat).count choice =
      if choice ∈ visited then i32 (stat.count choice + 1) else stat.count choice := by
  induction visited generalizing stat with
  | nil => rfl
  | cons first visited induction =>
      obtain ⟨new, distinct⟩ := List.nodup_cons.1 distinct
      rw [List.foldl_cons, induction distinct]
      obtain rfl | ne := eq_or_ne choice first
      · simp [new, stepObj]
      · simp [ne, stepObj]

theorem foldl_stepObj_other (val : Int) {offset : Int}
    (others : ∀ choice ∈ visited, (stat.pool.statobjs choice).valOffset ≠ offset) :
    (visited.foldl (stepObj val) stat).statvals offset = stat.statvals offset := by
  induction visited generalizing stat with
  | nil => rfl
  | cons first visited induction =>
      obtain ⟨ne, others⟩ := List.forall_mem_cons.1 others
      exact (@induction (stepObj val stat first) others).trans (Function.update_of_ne ne.symm ..)

theorem foldl_stepObj_cell (val : Int) (distinct : visited.Nodup)
    (apart : ∀ choice ∈ visited, ∀ other ∈ visited, choice ≠ other →
      (stat.pool.statobjs choice).valOffset ≠ (stat.pool.statobjs other).valOffset)
    (member : choice ∈ visited) :
    (visited.foldl (stepObj val) stat).statvals (stat.pool.statobjs choice).valOffset =
      StatPolicy.step (stat.pool.statobjs choice).type
        (stat.statvals (stat.pool.statobjs choice).valOffset) val := by
  induction visited generalizing stat with
  | nil => cases member
  | cons first visited induction =>
      obtain ⟨new, distinct⟩ := List.nodup_cons.1 distinct
      rw [List.foldl_cons]
      obtain rfl | ne := eq_or_ne choice first
      · refine (foldl_stepObj_other val fun other member' => ?_).trans (Function.update_self ..)
        exact apart other (List.mem_cons_of_mem _ member') choice List.mem_cons_self
          fun same => new (same ▸ member')
      · have member := (List.mem_cons.1 member).resolve_left ne
        refine (@induction (stepObj val stat first) distinct (fun other member' other' member'' =>
          apart other (List.mem_cons_of_mem _ member') other' (List.mem_cons_of_mem _ member''))
          member).trans ?_
        have kept : (stepObj val stat first).statvals (stat.pool.statobjs choice).valOffset =
            stat.statvals (stat.pool.statobjs choice).valOffset :=
          Function.update_of_ne (apart choice (List.mem_cons_of_mem _ member) first
            List.mem_cons_self ne) ..
        exact congrArg (StatPolicy.step _ · val) kept

theorem Keeps.obj (keeps : Keeps (.idle 0) stat reported registered) (member : entry ∈ registered) :
    (stat.pool.statobjs entry.choice).id = entry.id ∧
      (stat.pool.statobjs entry.choice).type = entry.type := by
  obtain ⟨visited, -, -, registered_iff⟩ := travel_registered keeps.sound
  exact ((registered_iff entry.id entry.type entry.choice).1 member).2

theorem Keeps.offset_ne (keeps : Keeps (.idle 0) stat reported registered)
    (member : entry ∈ registered) (member' : other ∈ registered)
    (ne : entry.choice ≠ other.choice) :
    (stat.pool.statobjs entry.choice).valOffset ≠ (stat.pool.statobjs other.choice).valOffset :=
  CTStat.offset_ne keeps.sound member member' (keeps.valSize _ member) (keeps.valSize _ member') ne

section Step

variable {id : CStr} {val : Int}

theorem Keeps.mem_visited_iff (keeps : Keeps (.idle 0) stat reported registered)
    (visited_iff : ∀ handle, handle ∈ visited ↔ ∃ type, ⟨id, type, handle⟩ ∈ registered)
    (member : entry ∈ registered) : entry.choice ∈ visited ↔ entry.id = id := by
  rw [visited_iff]
  constructor
  · rintro ⟨type, member'⟩
    exact (keeps.obj member).1.symm.trans (keeps.obj member').1
  · rintro rfl
    exact ⟨entry.type, member⟩

/-- The objects of the id have the value, and the others are as before. -/
theorem Keeps.values_step0 (keeps : Keeps (.idle 0) stat reported registered)
    (distinct : visited.Nodup)
    (visited_iff : ∀ handle, handle ∈ visited ↔ ∃ type, ⟨id, type, handle⟩ ∈ registered)
    (member : entry ∈ registered)
    (at_id : reported.next (.step0 id val) entry.id = some (types, vals)) :
    (visited.foldl (stepObj val) stat).count entry.choice = i32 vals.length ∧
      (visited.foldl (stepObj val) stat).statvals (stat.pool.statobjs entry.choice).valOffset =
        StatPolicy.cellAfter entry.type vals := by
  rw [foldl_stepObj_count val distinct]
  obtain same | ne := eq_or_ne entry.id id
  · have is_visited := (keeps.mem_visited_iff visited_iff member).2 same
    have apart : ∀ choice ∈ visited, ∀ other ∈ visited, choice ≠ other →
        (stat.pool.statobjs choice).valOffset ≠ (stat.pool.statobjs other).valOffset := by
      intro choice member other member' ne
      obtain ⟨type, member⟩ := (visited_iff choice).1 member
      obtain ⟨type', member'⟩ := (visited_iff other).1 member'
      exact keeps.offset_ne member member' ne
    rw [Reported.next, same, Function.update_self] at at_id
    obtain ⟨⟨types', vals'⟩, at_old, eq⟩ := Option.map_eq_some_iff.1 at_id
    obtain ⟨rfl, rfl⟩ := Prod.mk.inj eq
    obtain ⟨count_eq, cell_eq⟩ := keeps.values entry member types' vals' (same ▸ at_old)
    rw [if_pos is_visited, foldl_stepObj_cell val distinct apart is_visited, count_eq, cell_eq,
      (keeps.obj member).2, StatPolicy.cellAfter_concat]
    refine ⟨?_, rfl⟩
    rw [List.length_append, List.length_singleton]
    unfold i32
    omega
  · have not_visited : entry.choice ∉ visited := fun is_visited =>
      ne ((keeps.mem_visited_iff visited_iff member).1 is_visited)
    rw [Reported.next, Function.update_of_ne ne] at at_id
    rw [if_neg not_visited, foldl_stepObj_other val fun choice is_visited => ?_]
    · exact keeps.values entry member types vals at_id
    · obtain ⟨type, member'⟩ := (visited_iff choice).1 is_visited
      refine keeps.offset_ne member' member ?_
      rintro rfl
      exact not_visited is_visited

end Step

theorem Keeps.step0 (keeps : Keeps (.idle 0) stat reported registered) (id : CStr) (val : Int) :
    ∃ after, stat.perform (.step0 id val) = some (some (0, after)) ∧
      Keeps (.idle 0) after (reported.next (.step0 id val)) registered := by
  obtain ⟨visited, stepped, distinct, visited_iff⟩ := keeps.sound.correct.reached id
  have pool_eq := @foldl_stepObj_pool stat val visited
  refine ⟨_, congrArg (Option.map _) stepped, ?_, ?_, fun id' type => ?_, fun entry member => ?_,
    fun choice others => ?_, fun offset others => ?_⟩
  · rw [pool_eq]
    exact keeps.sound
  · rw [pool_eq]
    exact keeps.valSize
  · rw [keeps.known, Reported.next, Function.update_apply]
    split
    · subst id'
      rcases reported id with - | ⟨types, vals⟩ <;> simp
    · rfl
  · intro types vals at_id
    rw [pool_eq]
    exact keeps.values_step0 distinct visited_iff member at_id
  · rw [foldl_stepObj_count val distinct, if_neg fun is_visited => ?_]
    · exact keeps.fresh_count choice others
    · obtain ⟨type, member⟩ := (visited_iff choice).1 is_visited
      exact others _ member rfl
  · rw [pool_eq] at others
    rw [foldl_stepObj_other val fun choice is_visited => ?_]
    · exact keeps.fresh_cell offset others
    · obtain ⟨type, member⟩ := (visited_iff choice).1 is_visited
      exact others _ member

/-! ## Runs -/

theorem next_types {event : StatEvent}
    (has_types : ∀ id types vals, reported id = some (types, vals) → types ≠ [])
    (id : CStr) (types : List Nat) (vals : List Int)
    (at_id : reported.next event id = some (types, vals)) : types ≠ [] := by
  cases event with
  | initStatobj call =>
      rw [Reported.next] at at_id
      split at at_id
      · exact has_types id types vals at_id
      · rw [Function.update_apply] at at_id
        grind
  | step0 id' val =>
      rw [Reported.next, Function.update_apply] at at_id
      cases before : reported id' <;> grind

/-- The calls do not fail, and unless the process exits they keep the invariant. -/
theorem Keeps.run {events : List StatEvent} (keeps : Keeps (.idle 0) stat reported registered)
    (has_types : ∀ id types vals, reported id = some (types, vals) → types ≠ [])
    (regular : ∀ call, StatEvent.initStatobj call ∈ events →
      call.id.length < statIdMaxLen ∧ call.valSize = 1) :
    ∃ outcome, CTStat.run events stat = some outcome ∧ ∀ after, outcome = some after →
      (∀ id types vals, events.foldl Reported.next reported id = some (types, vals) → types ≠ []) ∧
        ∃ registered', Keeps (.idle 0) after (events.foldl Reported.next reported) registered' := by
  induction events generalizing stat reported registered with
  | nil =>
      refine ⟨_, rfl, ?_⟩
      rintro _ ⟨⟩
      exact ⟨has_types, registered, keeps⟩
  | cons event events induction =>
      obtain ⟨outcome, performed, next_keeps⟩ : ∃ outcome, stat.perform event = some outcome ∧
          ∀ ret after, outcome = some (ret, after) → ∃ registered',
            Keeps (.idle 0) after (reported.next event) registered' := by
        cases event with
        | initStatobj call =>
            obtain ⟨short, size⟩ := regular call List.mem_cons_self
            exact keeps.initStatobj has_types short size
        | step0 id val =>
            obtain ⟨after, performed, after_keeps⟩ := keeps.step0 id val
            refine ⟨_, performed, ?_⟩
            rintro _ _ ⟨⟩
            exact ⟨registered, after_keeps⟩
      cases outcome with
      | none => exact ⟨none, by rw [CTStat.run, performed]; rfl, by simp⟩
      | some result =>
          obtain ⟨ret, middle⟩ := result
          obtain ⟨registered', middle_keeps⟩ := next_keeps ret middle rfl
          obtain ⟨outcome, ran, after_keeps⟩ := induction middle_keeps (next_types has_types)
            fun call member => regular call (List.mem_cons_of_mem _ member)
          exact ⟨outcome, by rw [CTStat.run, performed]; exact ran, after_keeps⟩

theorem keeps_init : Keeps (.idle 0) init (fun _ => none) [] := by
  refine ⟨?_, by simp, by simp, by simp, fun _ _ => rfl, fun _ _ => rfl⟩
  rw [alone, Function.update_eq_self]
  exact StatSystem.init_sound_newpool

/-- The count is right while it fits, and then the value is right for regular values. -/
theorem shows_iff (fits : StatPolicy.Fits vals) (count_eq : stat.count choice = i32 vals.length)
    (cell_eq : stat.statvals (stat.pool.statobjs choice).valOffset =
      StatPolicy.cellAfter type vals) :
    stat.Shows choice type vals ↔
      vals.length < 2147483648 ∧ (vals ≠ [] → StatPolicy.Regular type vals) := by
  rw [Shows, count_eq, cell_eq]
  have count_iff : (StatPolicy.result type (i32 vals.length)
      [StatPolicy.cellAfter type vals]).1 = vals.length ↔ vals.length < 2147483648 := by
    rw [StatPolicy.result]
    split <;> (try split) <;> dsimp only <;> unfold i32 at * <;> omega
  refine (and_congr_left' count_iff).trans (and_congr_right fun small => ?_)
  rw [i32_of_lt small]
  constructor
  · exact fun shown ne => (StatPolicy.expected_iff fits ne).1 (shown (Or.inl ne))
  · intro regular some_value
    by_cases ne : vals = []
    · subst ne
      rcases some_value.resolve_left (not_not.2 rfl) with rfl | rfl <;> exact ⟨0, rfl, rfl⟩
    · exact (StatPolicy.expected_iff fits ne).2 (regular ne)

/-- What `travel` shows is right exactly if the counts fit and the values are regular. -/
theorem Keeps.right_iff (keeps : Keeps (.idle 0) stat reported registered)
    (fits : ∀ id types vals, reported id = some (types, vals) → StatPolicy.Fits vals) :
    stat.Right reported ↔ ∀ id types vals, reported id = some (types, vals) → ∀ type ∈ types,
      vals.length < 2147483648 ∧ (vals ≠ [] → StatPolicy.Regular type vals) := by
  obtain ⟨visited, travelled, distinct, registered_iff⟩ := travel_registered keeps.sound
  have unique := keeps.sound.correct.unique
  -- the object of a type of an id, and what it shows
  have object : ∀ id types vals, reported id = some (types, vals) → ∀ type ∈ types, ∃ choice,
      (∀ handle, handle ∈ visited ∧ (stat.pool.statobjs handle).id = id ∧
        (stat.pool.statobjs handle).type = type ↔ handle = choice) ∧
      (stat.Shows choice type vals ↔
        vals.length < 2147483648 ∧ (vals ≠ [] → StatPolicy.Regular type vals)) := by
    intro id types vals at_id type member
    obtain ⟨choice, entry⟩ := (keeps.known id type).2 ⟨types, vals, at_id, member⟩
    refine ⟨choice, fun handle => ?_, ?_⟩
    · rw [← registered_iff]
      constructor
      · intro entry'
        have same := List.inj_on_of_nodup_map unique entry' entry rfl
        exact congrArg Registered.choice same
      · rintro rfl
        exact entry
    · obtain ⟨count_eq, cell_eq⟩ := keeps.values _ entry types vals at_id
      exact shows_iff (fits id types vals at_id) count_eq cell_eq
  constructor
  · rintro ⟨visited', travelled', -, right⟩ id types vals at_id type member
    cases travelled'.symm.trans travelled
    obtain ⟨choice, is_choice, shows⟩ := right id types vals at_id type member
    obtain ⟨choice', is_choice', shows_iff⟩ := object id types vals at_id type member
    cases (is_choice' choice).1 ((is_choice choice).2 rfl)
    exact shows_iff.1 shows
  · intro regular
    refine ⟨visited, travelled, distinct, fun id types vals at_id type member => ?_⟩
    obtain ⟨choice, is_choice, shows_iff⟩ := object id types vals at_id type member
    exact ⟨choice, is_choice, shows_iff.2 (regular id types vals at_id type member)⟩

/-- The calls return, unless the process exits because the pool is full.  Then the statistics are
right exactly if the counts fit and the values are regular, and to register an id again changes
nothing. -/
theorem run_right_iff {events : List StatEvent}
    (regular : ∀ call, StatEvent.initStatobj call ∈ events →
      call.id.length < statIdMaxLen ∧ call.valSize = 1)
    (fits : ∀ id types vals, reportedBy events id = some (types, vals) → StatPolicy.Fits vals) :
    ∃ outcome, run events init = some outcome ∧ ∀ stat, outcome = some stat →
      (stat.Right (reportedBy events) ↔ ∀ id types vals, reportedBy events id = some (types, vals) →
        ∀ type ∈ types,
          vals.length < 2147483648 ∧ (vals ≠ [] → StatPolicy.Regular type vals)) ∧
      ∀ call : StatCall, (reportedBy events call.id).isSome →
        stat.perform (.initStatobj call) = some (some (errStatExist, stat)) := by
  obtain ⟨outcome, ran, keeps⟩ := keeps_init.run (by simp) regular
  refine ⟨outcome, ran, fun stat is_stat => ?_⟩
  obtain ⟨has_types, registered, keeps⟩ := keeps stat is_stat
  exact ⟨keeps.right_iff fits, fun call => keeps.exists_again has_types⟩

/-- One value, with all types. -/
def someCall : StatCall := ⟨[0x61], 63, 1⟩

/-- Two steps of it. -/
def someEvents (first second : Int) : List StatEvent :=
  [.initStatobj someCall, .step0 someCall.id first, .step0 someCall.id second]

theorem reportedBy_someEvents (first second : Int) : reportedBy (someEvents first second) =
    Function.update (fun _ => none) someCall.id (some (policyNo, [first, second])) := by
  have types_eq : someCall.types = policyNo := by decide
  have registered : Reported.next (fun _ => none) (.initStatobj someCall) =
      Function.update (fun _ => none) someCall.id (some (policyNo, [])) := by
    rw [Reported.next, types_eq]
    exact if_neg (by decide)
  rw [reportedBy, someEvents, List.foldl_cons, registered]
  simp only [List.foldl_cons, List.foldl_nil, Reported.next, Function.update_self,
    Function.update_idem, Option.map_some]
  rfl

theorem eq_of_reportedBy {id : CStr}
    (at_id : reportedBy (someEvents first second) id = some (types, vals)) :
    types = policyNo ∧ vals = [first, second] := by
  rw [reportedBy_someEvents, Function.update_apply] at at_id
  grind

theorem regular_someEvents (call : StatCall)
    (member : StatEvent.initStatobj call ∈ someEvents first second) :
    call.id.length < statIdMaxLen ∧ call.valSize = 1 := by
  obtain rfl : call = someCall := by simpa [someEvents] using member
  decide

theorem fits_pair (values : ∀ part ∈ [first, second].inits, i32 part.sum = part.sum)
    (second_fits : i32 second = second) : StatPolicy.Fits [first, second] := by
  refine ⟨?_, fun part is_part => values part ((List.mem_inits _ _).2 is_part)⟩
  simpa [second_fits] using values [first] (by simp)

/-- The values 3 and -1 with all types. -/
theorem run_right_three :
    ∃ stat, run (someEvents 3 (-1)) init = some (some stat) ∧
      stat.Right (reportedBy (someEvents 3 (-1))) := by
  obtain ⟨outcome, ran, right⟩ := @run_right_iff (someEvents 3 (-1)) regular_someEvents
    fun id types vals at_id => by
      obtain ⟨-, rfl⟩ := eq_of_reportedBy at_id
      exact fits_pair (by decide) (by decide)
  have returned : (run (someEvents 3 (-1)) init).map Option.isSome = some true := by decide
  rw [ran] at returned
  obtain ⟨stat, rfl⟩ := Option.isSome_iff_exists.1 (Option.some_injective _ returned)
  refine ⟨stat, ran, ((right stat rfl).1).2 fun id types vals at_id type member => ?_⟩
  obtain ⟨rfl, rfl⟩ := eq_of_reportedBy at_id
  refine ⟨by decide, fun _ => ?_⟩
  fin_cases member <;> decide

/-- The minimum of 0 and 5 is shown as 5. -/
theorem run_forgets_zero :
    ∃ stat, run (someEvents 0 5) init = some (some stat) ∧
      (stat.pool.statobjs 3).id = someCall.id ∧ (stat.pool.statobjs 3).type = 8 ∧
      StatPolicy.result 8 (stat.count 3) [stat.statvals (stat.pool.statobjs 3).valOffset] =
        (2, [5]) ∧
      ¬stat.Right (reportedBy (someEvents 0 5)) := by
  obtain ⟨outcome, ran, keeps⟩ :=
    @Keeps.run _ _ _ (someEvents 0 5) keeps_init (by simp) regular_someEvents
  have object : (run (someEvents 0 5) init).map (Option.map fun stat =>
      ((stat.pool.statobjs 3).id, (stat.pool.statobjs 3).type, StatPolicy.result 8 (stat.count 3)
        [stat.statvals (stat.pool.statobjs 3).valOffset])) =
      some (some (someCall.id, 8, 2, [5])) := by decide
  rw [ran] at object
  obtain ⟨stat, rfl, shown⟩ := Option.map_eq_some_iff.1 (Option.some_injective _ object)
  simp only [Prod.mk.injEq] at shown
  refine ⟨stat, ran, shown.1, shown.2.1, shown.2.2, fun right => ?_⟩
  obtain ⟨-, registered, keeps⟩ := keeps stat rfl
  have regular := (keeps.right_iff fun id types vals at_id => by
    obtain ⟨-, rfl⟩ := eq_of_reportedBy at_id
    exact fits_pair (by decide) (by decide)).1 right
  have at_id : reportedBy (someEvents 0 5) someCall.id = some (policyNo, [0, 5]) := by
    rw [reportedBy_someEvents, Function.update_self]
  exact absurd ((regular _ _ _ at_id 8 (by decide)).2 (by decide)) (by decide)

end CTStat

end Spp
