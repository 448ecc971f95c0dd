import Spp.Nest.ProxyPort

/-!
# The processes of the agent, `TNestProcMng`

`nest/agent/agent_process.cpp` keeps the processes by their keys, by their pids, and by their pids
again in a map of their package and process group.  When a process is removed or reports another
pid, the entries of its old pid are erased, whichever process they stand for.
-/

namespace Spp

/-- `TNestProc`, at a pointer. -/
structure TNestProc where
  ptr : Nat
  key : TProcKey
  pid : UInt32
  package : String
  deriving DecidableEq

/-- Where the process stands in the maps of the packages: package, group and pid. -/
def TNestProc.place (proc : TNestProc) : String × UInt32 × UInt32 :=
  (proc.package, proc.key.procType, proc.pid)

/-- `TNestProcMng`; a process lives as long as its entry in `_pno_map`. -/
structure TNestProcMng where
  pnoMap : TProcKey → Option TNestProc
  pidMap : UInt32 → Option Nat
  /-- `_pkg_mng`: the maps `_group_map` of all packages. -/
  pkgMap : String × UInt32 × UInt32 → Option Nat
  /-- The process that has reported a pid last; not in the source. -/
  reported : UInt32 → Option Nat

/-- The calls that change the maps. -/
inductive ProcCall
  | add (proc : TNestProc)
  | del (key : TProcKey)
  | update (key : TProcKey) (pid : UInt32)

/-- The key of a call. -/
def ProcCall.key : ProcCall → TProcKey
  | .add proc => proc.key
  | .del key => key
  | .update key _ => key

namespace TNestProcMng

/-- No processes. -/
def empty : TNestProcMng := ⟨fun _ => none, fun _ => none, fun _ => none, fun _ => none⟩

/-- `add_proc_pkg` -/
def addProcPkg (mng : TNestProcMng) (proc : TNestProc) : TNestProcMng :=
  { mng with pkgMap := Function.update mng.pkgMap proc.place (some proc.ptr) }

/-- `del_proc_pkg` -/
def delProcPkg (mng : TNestProcMng) (proc : TNestProc) : TNestProcMng :=
  { mng with pkgMap := Function.update mng.pkgMap proc.place none }

/-- `DelProc` -/
def delProc (mng : TNestProcMng) (key : TProcKey) : TNestProcMng :=
  match mng.pnoMap key with
  | none => mng
  | some proc => delProcPkg { mng with
      pnoMap := Function.update mng.pnoMap key none
      pidMap := Function.update mng.pidMap proc.pid none } proc

/-- The last part of `AddProc`. -/
def record (mng : TNestProcMng) (proc : TNestProc) : TNestProcMng :=
  addProcPkg { mng with
    pnoMap := Function.update mng.pnoMap proc.key (some proc)
    pidMap := Function.update mng.pidMap proc.pid (some proc.ptr)
    reported := Function.update mng.reported proc.pid (some proc.ptr) } proc

/-- `AddProc` -/
def addProc (mng : TNestProcMng) (proc : TNestProc) : TNestProcMng :=
  match mng.pnoMap proc.key with
  | none => mng.record proc
  | some found => (mng.delProc found.key).record proc

/-- `UpdateProcPid` -/
def updateProcPid (mng : TNestProcMng) (key : TProcKey) (pid : UInt32) : TNestProcMng :=
  match mng.pnoMap key with
  | none => mng
  | some found =>
      let erased := delProcPkg { mng with
        pidMap := Function.update mng.pidMap found.pid none } found
      let proc := { found with pid }
      addProcPkg { erased with
        pnoMap := Function.update erased.pnoMap key (some proc)
        pidMap := Function.update erased.pidMap pid (some proc.ptr)
        reported := Function.update erased.reported pid (some proc.ptr) } proc

/-- `FindProc` -/
def findProc (mng : TNestProcMng) (pid : UInt32) : Option Nat := mng.pidMap pid

/-- The maps after a call. -/
def perform (mng : TNestProcMng) : ProcCall → TNestProcMng
  | .add proc => mng.addProc proc
  | .del key => mng.delProc key
  | .update key pid => mng.updateProcPid key pid

/-- A process is stored. -/
def Has (mng : TNestProcMng) (proc : TNestProc) : Prop := mng.pnoMap proc.key = some proc

/-- The maps agree. -/
structure Agrees (mng : TNestProcMng) : Prop where
  latest : ∀ {proc}, mng.Has proc →
    mng.pidMap proc.pid = mng.reported proc.pid ∧ mng.pkgMap proc.place = mng.reported proc.pid
  pid_stored : ∀ {pid ptr}, mng.pidMap pid = some ptr → ∃ proc, mng.Has proc ∧ proc.ptr = ptr
  pkg_stored : ∀ {place ptr}, mng.pkgMap place = some ptr → ∃ proc, mng.Has proc ∧ proc.ptr = ptr
  found : ∀ {pid}, mng.findProc pid = none → ∀ {proc}, mng.Has proc → proc.pid ≠ pid

/-! ## One form of all calls -/

/-- The process that has the key after the call, if the call records one. -/
def recorded (mng : TNestProcMng) : ProcCall → Option TNestProc
  | .add proc => some proc
  | .del _ => none
  | .update key pid => (mng.pnoMap key).map fun found => { found with pid }

/-- What the maps say under all calls: a process stands under its own key, has an address of its
own, and is where its entries say. -/
structure Stored (mng : TNestProcMng) : Prop where
  key_eq : ∀ {key proc}, mng.pnoMap key = some proc → proc.key = key
  ptr_inj : ∀ {proc other}, mng.Has proc → mng.Has other → proc.ptr = other.ptr → proc = other
  pid_eq : ∀ {pid ptr}, mng.pidMap pid = some ptr →
    ∃ proc, mng.Has proc ∧ proc.ptr = ptr ∧ proc.pid = pid
  place_eq : ∀ {place ptr}, mng.pkgMap place = some ptr →
    ∃ proc, mng.Has proc ∧ proc.ptr = ptr ∧ proc.place = place

/-- A process that is added has an address that no other process has. -/
def Possible (mng : TNestProcMng) : ProcCall → Prop
  | .add proc => ∀ other, mng.Has other → other.ptr ≠ proc.ptr
  | _ => True

/-- No other process has the pid that is removed, unless the pid is recorded again; another process
that has the pid that is recorded is of the same package and group. -/
def Clear (mng : TNestProcMng) (call : ProcCall) : Prop :=
  ∀ proc, mng.Has proc → proc.key ≠ call.key →
    (∀ new, mng.recorded call = some new → proc.pid = new.pid → proc.place = new.place) ∧
    ∀ old, mng.pnoMap call.key = some old → proc.pid = old.pid →
      ∃ new, mng.recorded call = some new ∧ new.pid = old.pid

section Calls

variable {mng : TNestProcMng} {call : ProcCall} {key : TProcKey} {proc old new : TNestProc}
  {pid : UInt32} {place : String × UInt32 × UInt32}

theorem perform_recorded (stored : mng.Stored) (recorded : mng.recorded call = some new) :
    mng.perform call = (mng.delProc call.key).record new ∧ new.key = call.key := by
  cases call with
  | add proc =>
      cases recorded
      refine ⟨?_, rfl⟩
      rw [perform, addProc, ProcCall.key]
      cases found : mng.pnoMap new.key with
      | none => rw [delProc, found]
      | some old => rw [← stored.key_eq found]
  | del key => cases recorded
  | update key pid =>
      obtain ⟨found, at_key, rfl⟩ := Option.map_eq_some_iff.1 recorded
      have key_eq : found.key = key := stored.key_eq at_key
      refine ⟨?_, key_eq⟩
      rw [perform, updateProcPid, ProcCall.key, delProc, at_key, record]
      simp only [delProcPkg, addProcPkg, key_eq, Function.update_idem]

theorem perform_not_recorded (recorded : mng.recorded call = none) :
    mng.perform call = mng.delProc call.key := by
  cases call with
  | add proc => cases recorded
  | del key => rfl
  | update key pid =>
      have missing : mng.pnoMap key = none := Option.map_eq_none_iff.1 recorded
      rw [perform, updateProcPid, ProcCall.key, delProc, missing]

theorem delProc_pnoMap (mng : TNestProcMng) (key other : TProcKey) :
    (mng.delProc key).pnoMap other = if other = key then none else mng.pnoMap other := by
  unfold delProc
  cases at_key : mng.pnoMap key with
  | none =>
      split_ifs with same
      · rw [same, at_key]
      · rfl
  | some old => exact Function.update_apply _ _ _ _

theorem delProc_pidMap (at_key : mng.pnoMap key = some old) (pid : UInt32) :
    (mng.delProc key).pidMap pid = if pid = old.pid then none else mng.pidMap pid := by
  rw [delProc, at_key]
  exact Function.update_apply _ _ _ _

theorem delProc_pkgMap (at_key : mng.pnoMap key = some old) (place : String × UInt32 × UInt32) :
    (mng.delProc key).pkgMap place = if place = old.place then none else mng.pkgMap place := by
  rw [delProc, at_key]
  exact Function.update_apply _ _ _ _

theorem delProc_reported (mng : TNestProcMng) (key : TProcKey) :
    (mng.delProc key).reported = mng.reported := by
  unfold delProc
  cases mng.pnoMap key <;> rfl

theorem delProc_of_none (at_key : mng.pnoMap key = none) : mng.delProc key = mng := by
  rw [delProc, at_key]

theorem record_pnoMap (mng : TNestProcMng) (new : TNestProc) (key : TProcKey) :
    (mng.record new).pnoMap key = if key = new.key then some new else mng.pnoMap key :=
  Function.update_apply _ _ _ _

theorem record_pidMap (mng : TNestProcMng) (new : TNestProc) (pid : UInt32) :
    (mng.record new).pidMap pid = if pid = new.pid then some new.ptr else mng.pidMap pid :=
  Function.update_apply _ _ _ _

theorem record_pkgMap (mng : TNestProcMng) (new : TNestProc) (place : String × UInt32 × UInt32) :
    (mng.record new).pkgMap place = if place = new.place then some new.ptr else mng.pkgMap place :=
  Function.update_apply _ _ _ _

theorem record_reported (mng : TNestProcMng) (new : TNestProc) (pid : UInt32) :
    (mng.record new).reported pid = if pid = new.pid then some new.ptr else mng.reported pid :=
  Function.update_apply _ _ _ _

theorem has_delProc : (mng.delProc key).Has proc ↔ mng.Has proc ∧ proc.key ≠ key := by
  rw [Has, Has, delProc_pnoMap]
  split_ifs with same
  · exact iff_of_false nofun fun has => has.2 same
  · exact (and_iff_left same).symm

theorem has_record :
    (mng.record new).Has proc ↔ proc = new ∨ mng.Has proc ∧ proc.key ≠ new.key := by
  rw [Has, Has, record_pnoMap]
  split_ifs with same
  · rw [or_iff_left fun has => has.2 same, Option.some.injEq, eq_comm]
  · rw [or_iff_right fun eq => same (congrArg TNestProc.key eq), and_iff_left same]

theorem Stored.has (stored : mng.Stored) (at_key : mng.pnoMap key = some proc) : mng.Has proc := by
  rw [Has, stored.key_eq at_key, at_key]

theorem Stored.delProc (stored : mng.Stored) (key : TProcKey) : Stored (mng.delProc key) := by
  cases at_key : mng.pnoMap key with
  | none => rwa [delProc_of_none at_key]
  | some old =>
      -- The process at the key is the removed one, whose entries are gone.
      obtain ⟨key_eq, ptr_inj, pid_eq, place_eq⟩ := stored
      simp only [Has] at *
      constructor <;>
        simp only [Has, delProc_pnoMap, delProc_pidMap at_key, delProc_pkgMap at_key] <;> grind

theorem Stored.record (stored : mng.Stored) (unused : mng.pnoMap new.key = none)
    (fresh : ∀ other, mng.Has other → other.ptr ≠ new.ptr) : Stored (mng.record new) := by
  obtain ⟨key_eq, ptr_inj, pid_eq, place_eq⟩ := stored
  simp only [Has] at *
  constructor <;> simp only [Has, record_pnoMap, record_pidMap, record_pkgMap] <;> grind

/-- What a call records has an address that no process with another key has. -/
theorem Stored.fresh (stored : mng.Stored) (possible : mng.Possible call)
    (recorded : mng.recorded call = some new) :
    ∀ other, (mng.delProc call.key).Has other → other.ptr ≠ new.ptr := by
  intro other kept
  obtain ⟨has, ne⟩ := has_delProc.1 kept
  cases call with
  | add proc =>
      cases recorded
      exact possible other has
  | del key => cases recorded
  | update key pid =>
      obtain ⟨found, at_key, rfl⟩ := Option.map_eq_some_iff.1 recorded
      intro same
      have eq := stored.ptr_inj has (stored.has at_key) same
      exact ne (eq ▸ stored.key_eq at_key)

theorem Stored.perform (stored : mng.Stored) (possible : mng.Possible call) :
    Stored (mng.perform call) := by
  cases recorded : mng.recorded call with
  | none =>
      rw [perform_not_recorded recorded]
      exact stored.delProc _
  | some new =>
      obtain ⟨eq, key_eq⟩ := perform_recorded stored recorded
      rw [eq]
      refine (stored.delProc _).record ?_ (stored.fresh possible recorded)
      rw [delProc_pnoMap, if_pos key_eq]

theorem pid_eq_of_place_eq (same : proc.place = new.place) : proc.pid = new.pid :=
  congrArg (fun place => place.2.2) same

/-- The maps send the pid of the process to the last one that has reported it. -/
structure Shown (mng : TNestProcMng) (proc : TNestProc) : Prop where
  pid_reported : mng.pidMap proc.pid = mng.reported proc.pid
  pkg_reported : mng.pkgMap proc.place = mng.reported proc.pid
  some_reported : mng.pidMap proc.pid ≠ none

theorem Shown.delProc (shown : mng.Shown proc)
    (apart : ∀ old, mng.pnoMap key = some old → proc.pid ≠ old.pid) :
    Shown (mng.delProc key) proc := by
  cases at_key : mng.pnoMap key with
  | none => rwa [delProc_of_none at_key]
  | some old =>
      have pid_ne := apart old at_key
      have place_ne : proc.place ≠ old.place := fun same => pid_ne (pid_eq_of_place_eq same)
      have pid_kept := (delProc_pidMap at_key proc.pid).trans (if_neg pid_ne)
      have place_kept := (delProc_pkgMap at_key proc.place).trans (if_neg place_ne)
      constructor
      · rw [pid_kept, delProc_reported, shown.pid_reported]
      · rw [place_kept, delProc_reported, shown.pkg_reported]
      · rw [pid_kept]
        exact shown.some_reported

theorem shown_record_of_eq (place_eq : proc.place = new.place) : Shown (mng.record new) proc := by
  have pid_eq := pid_eq_of_place_eq place_eq
  constructor
  · rw [record_pidMap, record_reported, if_pos pid_eq, if_pos pid_eq]
  · rw [record_pkgMap, record_reported, if_pos place_eq, if_pos pid_eq]
  · rw [record_pidMap, if_pos pid_eq]
    exact Option.some_ne_none _

theorem Shown.record (shown : mng.Shown proc) (pid_ne : proc.pid ≠ new.pid) :
    Shown (mng.record new) proc := by
  have place_ne : proc.place ≠ new.place := fun same => pid_ne (pid_eq_of_place_eq same)
  constructor
  · rw [record_pidMap, record_reported, if_neg pid_ne, if_neg pid_ne, shown.pid_reported]
  · rw [record_pkgMap, record_reported, if_neg place_ne, if_neg pid_ne, shown.pkg_reported]
  · rw [record_pidMap, if_neg pid_ne]
    exact shown.some_reported

theorem Agrees.shown (agrees : mng.Agrees) (has : mng.Has proc) : mng.Shown proc :=
  ⟨(agrees.latest has).1, (agrees.latest has).2, fun missing => agrees.found missing has rfl⟩

theorem Agrees.perform (agrees : mng.Agrees) (stored : mng.Stored) (possible : mng.Possible call)
    (clear : mng.Clear call) : Agrees (mng.perform call) := by
  have after := stored.perform possible
  have shown : ∀ {proc}, (mng.perform call).Has proc → (mng.perform call).Shown proc := by
    intro proc has
    cases recorded : mng.recorded call with
    | none =>
        rw [perform_not_recorded recorded] at has ⊢
        obtain ⟨has, ne⟩ := has_delProc.1 has
        refine (agrees.shown has).delProc fun old at_key same => ?_
        obtain ⟨new, is_recorded, -⟩ := (clear proc has ne).2 old at_key same
        rw [recorded] at is_recorded
        cases is_recorded
    | some new =>
        obtain ⟨eq, key_eq⟩ := perform_recorded stored recorded
        rw [eq] at has ⊢
        rcases has_record.1 has with rfl | ⟨kept, -⟩
        · exact shown_record_of_eq rfl
        · obtain ⟨has, ne⟩ := has_delProc.1 kept
          by_cases pid_eq : proc.pid = new.pid
          · exact shown_record_of_eq ((clear proc has ne).1 new recorded pid_eq)
          · refine ((agrees.shown has).delProc fun old at_key same => ?_).record pid_eq
            obtain ⟨other, is_recorded, again⟩ := (clear proc has ne).2 old at_key same
            rw [recorded] at is_recorded
            exact pid_eq (same.trans (again.symm.trans (by cases is_recorded; rfl)))
  exact ⟨fun has => ⟨(shown has).pid_reported, (shown has).pkg_reported⟩,
    fun entry => (after.pid_eq entry).imp fun _ eqs => ⟨eqs.1, eqs.2.1⟩,
    fun entry => (after.place_eq entry).imp fun _ eqs => ⟨eqs.1, eqs.2.1⟩,
    fun missing _ has same => (shown has).some_reported (same ▸ missing)⟩

/-- A call that is not clear takes an entry from another process, or leaves one of another process
behind. -/
theorem clear_of_agrees (stored : mng.Stored) (possible : mng.Possible call)
    (agrees : Agrees (mng.perform call)) : mng.Clear call := by
  intro proc has ne
  have after := stored.perform possible
  cases recorded : mng.recorded call with
  | none =>
      refine ⟨nofun, fun old at_key same => ?_⟩
      rw [perform_not_recorded recorded] at agrees
      refine absurd ?_ (agrees.shown (has_delProc.2 ⟨has, ne⟩)).some_reported
      rw [delProc_pidMap at_key, if_pos same]
  | some new =>
      obtain ⟨eq, key_eq⟩ := perform_recorded stored recorded
      rw [eq] at agrees after
      have kept : ((mng.delProc call.key).record new).Has proc :=
        has_record.2 (Or.inr ⟨has_delProc.2 ⟨has, ne⟩, key_eq ▸ ne⟩)
      have shown := agrees.shown kept
      constructor
      · rintro _ ⟨⟩ pid_eq
        have entry := shown.pkg_reported
        rw [record_reported, if_pos pid_eq] at entry
        obtain ⟨other, has_other, ptr_eq, place_eq⟩ := after.place_eq entry
        have has_new : ((mng.delProc call.key).record new).Has new := has_record.2 (Or.inl rfl)
        rw [← place_eq, after.ptr_inj has_other has_new ptr_eq]
      · intro old at_key same
        refine ⟨new, rfl, ?_⟩
        by_contra pid_ne
        refine shown.some_reported ?_
        rw [record_pidMap, if_neg fun eq => pid_ne (eq.symm.trans same), delProc_pidMap at_key,
          if_pos same]

end Calls

open Executions

/-- What holds before every call of a run with clear calls. -/
structure Sound (mng : TNestProcMng) : Prop where
  stored : mng.Stored
  agrees : mng.Agrees

/-- The tables agree after every call of a run if and only if all calls are clear: a pid is not
reported by a process while a process of another package or group has it, and it is not taken from a
process while another one has it. -/
theorem along_agrees_iff {calls : List ProcCall} (possible : Along perform Possible empty calls) :
    Along perform (fun mng call => Agrees (mng.perform call)) empty calls ↔
      Along perform Clear empty calls := by
  have start : Sound empty := ⟨⟨nofun, nofun, nofun, nofun⟩, ⟨nofun, nofun, nofun, nofun⟩⟩
  refine along_iff (fun mng call sound possible => ?_) (fun mng call sound possible clear => ?_)
    start possible
  · exact ⟨clear_of_agrees sound.stored possible, sound.agrees.perform sound.stored possible⟩
  · exact ⟨sound.stored.perform possible, sound.agrees.perform sound.stored possible clear⟩

/-- A process gets another pid, a second one its old pid, and the first one is removed. -/
def pidTwice : List ProcCall :=
  [.add ⟨1, ⟨1, 0, 1⟩, 100, "a"⟩, .update ⟨1, 0, 1⟩ 101, .add ⟨2, ⟨1, 0, 2⟩, 100, "b"⟩,
    .del ⟨1, 0, 1⟩]

theorem along_agrees_pidTwice :
    Along perform (fun mng call => Agrees (mng.perform call)) empty pidTwice := by
  refine (along_agrees_iff ?_).2 ?_
  · simp [pidTwice, Along, Possible, Has, perform, addProc, updateProcPid, record, addProcPkg,
      delProcPkg, empty, Function.update_apply]
    grind
  · simp [pidTwice, Along, Clear, ProcCall.key, recorded, Has, perform, addProc, updateProcPid,
      record, addProcPkg, delProcPkg, empty, Function.update_apply]
    grind

/-- A process whose pid another one has taken over is removed: the other one is not found by the pid
any more. -/
theorem delProc_hides :
    let mng := ([.add ⟨1, ⟨1, 0, 1⟩, 100, "a"⟩, .add ⟨2, ⟨1, 0, 2⟩, 100, "a"⟩,
      .del ⟨1, 0, 1⟩] : List ProcCall).foldl perform empty
    mng.findProc 100 = none ∧ mng.pnoMap ⟨1, 0, 2⟩ = some ⟨2, ⟨1, 0, 2⟩, 100, "a"⟩ := by
  decide

end TNestProcMng

end Spp
