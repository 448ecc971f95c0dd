import Spp.Lib.Chain

/-!
# The statistics pool

Processes share one `TStatPool`: an array of objects that are in the free list, in the chain of a
bucket, or in the hands of a process.  `init_statobj` looks for its id; if it is not there, it makes
an object for each type, one after the other.  The allocation and the insertion hold the lock, the
search and the look at the capacity do not.  `step` updates the objects of an id, which it expects
to follow each other in their chain.
-/

namespace Spp

/-- A C string: its bytes before the final zero. -/
abbrev CStr := List (BitVec 8)

/-- `TStatObj` -/
structure TStatObj where
  id : CStr
  type : Nat
  valSize : Int
  valOffset : Int
  /-- `next_`; `INVALID_HANDLE` is `none`. -/
  next : Option Nat
  deriving DecidableEq

/-- `TStatPool` -/
structure TStatPool where
  freelist : Option Nat
  bucket : Nat → Option Nat
  statobjsUsed : Int
  statobjs : Nat → TStatObj
  statvalsUsed : Int

/-- `BUCKET_NUM` -/
def bucketNum : Nat := 200

/-- `DEFAULT_STATOBJ_NUM` -/
def defaultStatobjNum : Nat := 200

/-- `DEFAULT_STATVAL_NUM` -/
def defaultStatvalNum : Nat := defaultStatobjNum * 1

/-- `STAT_ID_MAX_LEN` -/
def statIdMaxLen : Nat := 64

/-- `policy_no_`, as the constructor fills it: `STAT_TYPE_SUM`, `AVG`, `MAX`, `MIN`, `COUNT` and
`SET`. -/
def policyNo : List Nat := [1, 2, 4, 8, 16, 32]

/-- `ERR_STAT_EXIST` -/
def errStatExist : Int := -2000

/-- One round of the loop of `hashid`; a `char` is signed. -/
def hashRound (hash : BitVec 32) (char : BitVec 8) : BitVec 32 :=
  hash ^^^ ((hash <<< 5) + char.signExtend 32 + (hash >>> 2))

/-- `hashid` -/
def hashid (id : CStr) : Nat :=
  (id.foldl hashRound 1315423911#32).toNat % bucketNum

/-- What `find_statobj` returns. -/
inductive Found
  | handle (choice : Option Nat)
  /-- An object that is its own successor: the process exits. -/
  | exits
  deriving DecidableEq

namespace TStatPool

/-- `newpool` -/
def newpool : TStatPool where
  freelist := some 0
  bucket := fun _ => none
  statobjsUsed := 0
  statobjs := fun handle =>
    { id := [], type := 0, valSize := 0, valOffset := 0
      next := if handle < defaultStatobjNum - 1 then some (handle + 1) else none }
  statvalsUsed := 0

/-- An object changes. -/
def setObj (pool : TStatPool) (handle : Nat) (obj : TStatObj) : TStatPool :=
  { pool with statobjs := Function.update pool.statobjs handle obj }

/-- The loop of `find_statobj`; `type` is a type or `STAT_TYPE_ALL`. -/
def findLoop (pool : TStatPool) (id : CStr) (type : Option Nat) :
    (rounds : Nat) → Option Nat → Option Found
  | 0, _ => none
  | _ + 1, none => some (.handle none)
  | rounds + 1, some next =>
      let obj := pool.statobjs next
      if obj.id = id ∧ (type = none ∨ type = some obj.type) then
        some (.handle (some next))
      else if obj.next = some next then
        some .exits
      else
        pool.findLoop id type rounds obj.next

/-- `find_statobj`.  A walk that has not ended after one round for each object does not end. -/
def findStatobj (pool : TStatPool) (id : CStr) (type : Option Nat) : Option Found :=
  pool.findLoop id type (defaultStatobjNum + 1) (pool.bucket (hashid id))

/-- The look at the capacity in `alloc_statobj`, after which the process exits. -/
def allocRefused (pool : TStatPool) (valSize : Int) : Bool :=
  valSize < 1 ∨ pool.statobjsUsed ≥ defaultStatobjNum ∨
    pool.statvalsUsed ≥ defaultStatvalNum - valSize

/-- The part of `alloc_statobj` that holds the lock.  Without a free object, `statobjs_` is accessed
at `INVALID_HANDLE`. -/
def allocStatobj (pool : TStatPool) (valSize : Int) : Option (Nat × TStatPool) :=
  match pool.freelist with
  | none => none
  | some choice =>
      let obj := pool.statobjs choice
      some (choice,
        { pool.setObj choice { obj with valSize := valSize, valOffset := pool.statvalsUsed } with
          freelist := obj.next
          statobjsUsed := pool.statobjsUsed + 1
          statvalsUsed := pool.statvalsUsed + valSize })

/-- `OBJ_INIT`; `strncpy` leaves one byte for the final zero. -/
def objInit (pool : TStatPool) (choice : Nat) (id : CStr) (type : Nat) : TStatPool :=
  pool.setObj choice
    { pool.statobjs choice with id := id.take (statIdMaxLen - 1), type := type, next := none }

/-- `insert_statobj` -/
def insertStatobj (pool : TStatPool) (choice : Nat) : TStatPool :=
  let bucketid := hashid (pool.statobjs choice).id
  { pool.setObj choice { pool.statobjs choice with next := pool.bucket bucketid } with
    bucket := Function.update pool.bucket bucketid (some choice) }

/-- The inner loop of `step`: the objects from a handle on for which `__step__` is called. -/
def stepLoop (pool : TStatPool) (id : CStr) : (rounds : Nat) → Option Nat → Option (List Nat)
  | 0, _ => none
  | _ + 1, none => some []
  | rounds + 1, some choice =>
      let obj := pool.statobjs choice
      if obj.id = id then
        (pool.stepLoop id rounds obj.next).map (choice :: ·)
      else
        some []

/-- `step`: the objects for which `__step__` is called; there is no result if the process exits. -/
def step (pool : TStatPool) : (ids : List CStr) → Option (List Nat)
  | [] => some []
  | id :: ids =>
      match pool.findStatobj id none with
      | some (.handle choice) => do
          let visited ← pool.stepLoop id (defaultStatobjNum + 1) choice
          let rest ← pool.step ids
          return visited ++ rest
      | _ => none

/-- `step0` -/
def step0 (pool : TStatPool) (id : CStr) : Option (List Nat) :=
  pool.step [id]

end TStatPool

/-- A call of `init_statobj`. -/
structure StatCall where
  id : CStr
  type : BitVec 32
  valSize : Int
  deriving DecidableEq

/-- The types for which `init_statobj` makes an object, in the order of its loop. -/
def StatCall.types (call : StatCall) : List Nat :=
  policyNo.filter fun type => call.type &&& BitVec.ofNat 32 type ≠ 0

/-- Where a process is in `init_statobj`; `types` are those of the rounds that are left. -/
inductive StatPhase
  | idle (result : Int)
  /-- Before the look at the capacity, for the first of the types. -/
  | checking (call : StatCall) (type : Nat) (types : List Nat)
  | allocating (call : StatCall) (type : Nat) (types : List Nat)
  | initialising (call : StatCall) (type : Nat) (types : List Nat) (choice : Nat)
  | inserting (call : StatCall) (type : Nat) (types : List Nat) (choice : Nat)
  | exited
  deriving DecidableEq

/-- The next round of the loop of `init_statobj`, or its end. -/
def StatPhase.round (call : StatCall) : (types : List Nat) → StatPhase
  | [] => .idle 0
  | type :: types => .checking call type types

/-- The call that is in progress. -/
def StatPhase.call : StatPhase → Option StatCall
  | .idle _ => none
  | .checking call _ _ => some call
  | .allocating call _ _ => some call
  | .initialising call _ _ _ => some call
  | .inserting call _ _ _ => some call
  | .exited => none

/-- An object that was inserted. -/
structure Registered where
  id : CStr
  type : Nat
  choice : Nat
  deriving DecidableEq

/-- The pool and the processes, with the objects that were inserted. -/
structure StatSystem where
  pool : TStatPool
  phase : Nat → StatPhase
  registered : List Registered

namespace StatSystem

/-- Processes outside of `init_statobj` that share a new pool. -/
def init : StatSystem where
  pool := .newpool
  phase := fun _ => .idle 0
  registered := []

/-- A process gets to another place. -/
def goTo (system : StatSystem) (process : Nat) (phase : StatPhase) : StatSystem :=
  { system with phase := Function.update system.phase process phase }

/-- The search of `init_statobj`. -/
def search (system : StatSystem) (process : Nat) (call : StatCall) : Option StatSystem :=
  match system.pool.findStatobj call.id none with
  | none => none
  | some .exits => some (system.goTo process .exited)
  | some (.handle (some _)) => some (system.goTo process (.idle errStatExist))
  | some (.handle none) => some (system.goTo process (.round call call.types))

/-- The next step of a process; one that is idle calls `init_statobj`. -/
def step (system : StatSystem) (process : Nat) (call : StatCall) : Option StatSystem :=
  match system.phase process with
  | .idle _ => system.search process call
  | .checking call type types =>
      if system.pool.allocRefused call.valSize then
        some (system.goTo process .exited)
      else
        some (system.goTo process (.allocating call type types))
  | .allocating call type types =>
      match system.pool.allocStatobj call.valSize with
      | none => none
      | some (choice, pool) =>
          some ({ system with pool := pool }.goTo process (.initialising call type types choice))
  | .initialising call type types choice =>
      some ({ system with pool := system.pool.objInit choice call.id type }.goTo process
        (.inserting call type types choice))
  | .inserting call type types choice =>
      some ({ system with
        pool := system.pool.insertStatobj choice
        registered := ⟨call.id, type, choice⟩ :: system.registered }.goTo process
          (.round call types))
  | .exited => some system

/-- A step of some process. -/
def Step (before after : StatSystem) : Prop :=
  ∃ process call, before.step process call = some after

end StatSystem

end Spp
