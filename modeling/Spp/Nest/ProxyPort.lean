import Spp.Lib.Executions
import Spp.Lib.OrderedMap
import Mathlib.Tactic

/-!
# The ports of the proxies, `TNestProcMng`

The agent of `nest/agent/agent_process.cpp` gives ports to the proxies and keeps them in a map from
ports to processes.  `GetUnusedPort` first looks at the port that the hash of the process gives.  If
that port is free it is taken, whether or not the process has another port already; only if it is in
use, the map is searched for a port of the process.
-/

namespace Spp

/-- `TProcKey` -/
structure TProcKey where
  serviceId : UInt32
  procType : UInt32
  procNo : UInt32
  deriving DecidableEq

/-- `NEST_PROXY_BASE_PORT` -/
def nestProxyBasePort : Nat := 61001

/-- `NEST_PROXY_PRIMER` -/
def nestProxyPrimer : Nat := 3989

/-- `TPortMap` -/
abbrev TPortMap := OrderedMap Nat TProcKey

/-- The calls that change the map. -/
inductive PortCall
  | get (proc : TProcKey)
  | regist (proc : TProcKey) (port : Nat)
  | free (proc : TProcKey) (port : Nat)

namespace TPortMap

/-- The port that a process hashes to. -/
def hashedPort (proc : TProcKey) : Nat :=
  (proc.serviceId.toNat * 4294967296 + proc.procNo.toNat) % nestProxyPrimer + nestProxyBasePort

/-- The loop of `GetUnusedPort` over the ports in the middle. -/
def middlePort (map : TPortMap) : Option Nat :=
  (List.range' (nestProxyBasePort + 1000) 2000).find? fun port => map.get port = none

/-- `GetUnusedPort`; port 0 is a failure. -/
def getUnusedPort (map : TPortMap) (proc : TProcKey) : Nat × TPortMap :=
  match map.get (hashedPort proc) with
  | none => (hashedPort proc, map.set (hashedPort proc) proc)
  | some item =>
      if item = proc then
        (hashedPort proc, map)
      else
        match map.keyOf proc with
        | some port => (port, map)
        | none =>
            match map.middlePort with
            | some port => (port, map.set port proc)
            | none => (0, map)

/-- `FreeUsedPort` -/
def freeUsedPort (map : TPortMap) (proc : TProcKey) (port : Nat) : TPortMap :=
  if map.get port = some proc then
    map.erase port
  else
    match map.keyOf proc with
    | some port => map.erase port
    | none => map

/-- `RegistProxyPort` -/
def registProxyPort (map : TPortMap) (proc : TProcKey) (port : Nat) : Bool × TPortMap :=
  match map.get port with
  | some _ => (false, map)
  | none => (true, map.set port proc)

/-- The map after a call. -/
def perform (map : TPortMap) : PortCall → TPortMap
  | .get proc => (map.getUnusedPort proc).2
  | .regist proc port => (map.registProxyPort proc port).2
  | .free proc port => map.freeUsedPort proc port

/-- The process has no port. -/
def Portless (map : TPortMap) (proc : TProcKey) : Prop := ∀ port, map.get port ≠ some proc

/-- A port that some process hashes to. -/
def Hashable (port : Nat) : Prop := 61001 ≤ port ∧ port ≤ 64989

/-! ## What the calls do -/

section Calls

variable {map : TPortMap} {proc other : TProcKey} {port : Nat}

theorem hashable_hashedPort (proc : TProcKey) : Hashable (hashedPort proc) := by
  unfold Hashable hashedPort nestProxyPrimer nestProxyBasePort
  omega

theorem middlePort_spec (found : map.middlePort = some port) :
    map.get port = none ∧ Hashable port := by
  rw [middlePort] at found
  have member := List.mem_of_find?_eq_some found
  rw [List.mem_range'_1, nestProxyBasePort] at member
  have free : map.get port = none := by simpa using List.find?_some found
  exact ⟨free, by omega, by omega⟩

/-- `GetUnusedPort` records a free port, finds a port of the process, or fails for a process without
a port. -/
theorem getUnusedPort_cases (map : TPortMap) (proc : TProcKey) :
    (∃ port, map.getUnusedPort proc = (port, map.set port proc) ∧ map.get port = none ∧
      Hashable port ∧ (port = hashedPort proc ∨ map.Portless proc)) ∨
    (∃ port, map.getUnusedPort proc = (port, map) ∧ map.get port = some proc) ∨
    (map.getUnusedPort proc = (0, map) ∧ map.Portless proc) := by
  unfold getUnusedPort
  cases at_hash : map.get (hashedPort proc) with
  | none => exact Or.inl ⟨_, rfl, at_hash, hashable_hashedPort proc, Or.inl rfl⟩
  | some item =>
      dsimp only
      by_cases same : item = proc
      · rw [if_pos same]
        exact Or.inr (Or.inl ⟨hashedPort proc, rfl, by rw [at_hash, same]⟩)
      · rw [if_neg same]
        cases found : map.keyOf proc with
        | some port => exact Or.inr (Or.inl ⟨port, rfl, OrderedMap.get_of_keyOf found⟩)
        | none =>
            have portless : map.Portless proc := OrderedMap.keyOf_eq_none.1 found
            dsimp only
            cases middle : map.middlePort with
            | none => exact Or.inr (Or.inr ⟨rfl, portless⟩)
            | some port =>
                have spec := middlePort_spec middle
                exact Or.inl ⟨port, rfl, spec.1, spec.2, Or.inr portless⟩

/-- `FreeUsedPort` erases a port of the process, the one that is named if it has it; it does nothing
if the process has no port. -/
theorem freeUsedPort_cases (map : TPortMap) (proc : TProcKey) (port : Nat) :
    (∃ erased, map.freeUsedPort proc port = map.erase erased ∧ map.get erased = some proc ∧
      (map.get port = some proc → erased = port)) ∨
    (map.freeUsedPort proc port = map ∧ map.Portless proc) := by
  unfold freeUsedPort
  by_cases named : map.get port = some proc
  · rw [if_pos named]
    exact Or.inl ⟨port, rfl, named, fun _ => rfl⟩
  · rw [if_neg named]
    cases found : map.keyOf proc with
    | none => exact Or.inr ⟨rfl, OrderedMap.keyOf_eq_none.1 found⟩
    | some erased =>
        exact Or.inl ⟨erased, rfl, OrderedMap.get_of_keyOf found, fun has => absurd has named⟩

theorem get_of_freeUsedPort {kept : Nat}
    (at_kept : (map.freeUsedPort proc port).get kept = some other) :
    map.get kept = some other := by
  rcases freeUsedPort_cases map proc port with ⟨erased, eq, -⟩ | ⟨eq, -⟩
  · rw [eq] at at_kept
    rcases eq_or_ne kept erased with rfl | ne
    · rw [OrderedMap.get_erase_self] at at_kept
      cases at_kept
    · rwa [OrderedMap.get_erase_of_ne ne] at at_kept
  · rwa [eq] at at_kept

theorem registProxyPort_of_free (free : map.get port = none) :
    map.registProxyPort proc port = (true, map.set port proc) := by
  rw [registProxyPort, free]

theorem registProxyPort_of_used (used : map.get port = some other) :
    map.registProxyPort proc port = (false, map) := by
  rw [registProxyPort, used]

end Calls

/-! ## Runs -/

open Executions

/-- What is expected of a call.  A port of `GetUnusedPort` is 0 or one that the hash can give, and
recorded for the process; it is the port that the process had, if it had one, and its only one.  A
process whose port is freed has none. -/
def Right (map : TPortMap) : PortCall → Prop
  | .get proc =>
      ((map.getUnusedPort proc).1 = 0 ∨ Hashable (map.getUnusedPort proc).1 ∧
        (map.getUnusedPort proc).2.get (map.getUnusedPort proc).1 = some proc) ∧
      (∀ port, map.get port = some proc → (map.getUnusedPort proc).1 = port) ∧
      ∀ port, (map.getUnusedPort proc).2.get port = some proc → port = (map.getUnusedPort proc).1
  | .regist _ _ => True
  | .free proc port => map.get port = some proc → (map.freeUsedPort proc port).Portless proc

/-- Only ports that the hash can give are registered, for processes without a port. -/
def Orderly (map : TPortMap) : PortCall → Prop
  | .regist proc port => map.get port = none → Hashable port ∧ map.Portless proc
  | _ => True

/-- `GetUnusedPort` does not meet a process whose port by the hash is free while it has another. -/
def Unmoved (map : TPortMap) : PortCall → Prop
  | .get proc => map.get (hashedPort proc) = none → map.Portless proc
  | _ => True

/-- Every process has at most one port, and the hash can give it. -/
structure Sound (map : TPortMap) : Prop where
  hashable : ∀ {port proc}, map.get port = some proc → Hashable port
  one : ∀ {port port' proc}, map.get port = some proc → map.get port' = some proc → port = port'

section Runs

variable {map : TPortMap} {proc : TProcKey} {port : Nat}

theorem Sound.set (sound : map.Sound) (hashable : Hashable port) (portless : map.Portless proc) :
    Sound (map.set port proc) := by
  have cases_at : ∀ {at_port found}, OrderedMap.get (map.set port proc) at_port = some found →
      at_port = port ∧ found = proc ∨ map.get at_port = some found := by
    intro at_port found at_found
    rcases eq_or_ne at_port port with rfl | ne
    · rw [OrderedMap.get_set_self] at at_found
      exact Or.inl ⟨rfl, (Option.some.inj at_found).symm⟩
    · rw [OrderedMap.get_set_of_ne ne] at at_found
      exact Or.inr at_found
  constructor
  · intro at_port found at_found
    rcases cases_at at_found with ⟨rfl, -⟩ | old
    · exact hashable
    · exact sound.hashable old
  · intro at_port at_port' found at_found at_found'
    rcases cases_at at_found with ⟨rfl, rfl⟩ | old
    · rcases cases_at at_found' with ⟨rfl, -⟩ | old'
      · rfl
      · exact absurd old' (portless at_port')
    · rcases cases_at at_found' with ⟨rfl, rfl⟩ | old'
      · exact absurd old (portless at_port)
      · exact sound.one old old'

theorem Sound.freeUsedPort (sound : map.Sound) (proc : TProcKey) (port : Nat) :
    Sound (map.freeUsedPort proc port) where
  hashable at_found := sound.hashable (get_of_freeUsedPort at_found)
  one at_found at_found' := sound.one (get_of_freeUsedPort at_found) (get_of_freeUsedPort at_found')

/-- A call of an orderly run keeps the table sound, if it does not meet a moved process. -/
theorem Sound.perform (sound : map.Sound) {call : PortCall} (orderly : Orderly map call)
    (unmoved : Unmoved map call) : Sound (map.perform call) := by
  cases call with
  | get proc =>
      rcases getUnusedPort_cases map proc with ⟨port, eq, free, hashable, which⟩ | ⟨port, eq, -⟩ |
        ⟨eq, -⟩
      · have portless : map.Portless proc := which.elim (fun same => unmoved (same ▸ free)) id
        rw [TPortMap.perform, eq]
        exact sound.set hashable portless
      · rwa [TPortMap.perform, eq]
      · rwa [TPortMap.perform, eq]
  | regist proc port =>
      cases at_port : map.get port with
      | none =>
          have ⟨hashable, portless⟩ := orderly at_port
          rw [TPortMap.perform, registProxyPort_of_free at_port]
          exact sound.set hashable portless
      | some other => rwa [TPortMap.perform, registProxyPort_of_used at_port]
  | free proc port => exact sound.freeUsedPort proc port

theorem Sound.right_of_unmoved (sound : map.Sound) {call : PortCall} (orderly : Orderly map call)
    (unmoved : Unmoved map call) : Right map call := by
  have after := sound.perform orderly unmoved
  cases call with
  | get proc =>
      rw [TPortMap.perform] at after
      rw [Right]
      rcases getUnusedPort_cases map proc with ⟨port, eq, free, hashable, which⟩ |
        ⟨port, eq, has⟩ | ⟨eq, portless⟩
      · have portless : map.Portless proc := which.elim (fun same => unmoved (same ▸ free)) id
        rw [eq] at after ⊢
        exact ⟨Or.inr ⟨hashable, OrderedMap.get_set_self⟩,
          fun port' has => absurd has (portless port'),
          fun port' has => after.one has OrderedMap.get_set_self⟩
      · rw [eq]
        exact ⟨Or.inr ⟨sound.hashable has, has⟩, fun port' has' => sound.one has has',
          fun port' has' => sound.one has' has⟩
      · rw [eq]
        exact ⟨Or.inl rfl, fun port' has => absurd has (portless port'),
          fun port' has => absurd has (portless port')⟩
  | regist proc port => trivial
  | free proc port =>
      intro has other has_other
      have same := sound.one (get_of_freeUsedPort has_other) has
      subst same
      rw [TPortMap.freeUsedPort, if_pos has, OrderedMap.get_erase_self] at has_other
      cases has_other

/-- A process that is met with its port by the hash free and another port gets a second one. -/
theorem unmoved_of_right {call : PortCall} (right : Right map call) : Unmoved map call := by
  cases call with
  | get proc =>
      intro free port has
      have moved : (map.getUnusedPort proc).1 = hashedPort proc := by rw [getUnusedPort, free]
      have same := right.2.1 port has
      rw [← same, moved, free] at has
      cases has
  | regist proc port | free proc port => trivial

/-- In a run that registers only ports the hash can give, for processes without a port, every call
does what is expected if and only if `GetUnusedPort` never meets a process that has a port while the
port that its hash gives is free. -/
theorem along_right_iff {calls : List PortCall}
    (orderly : Along perform Orderly OrderedMap.empty calls) :
    Along perform Right OrderedMap.empty calls ↔ Along perform Unmoved OrderedMap.empty calls := by
  have empty : Sound OrderedMap.empty := ⟨nofun, nofun⟩
  refine along_iff (fun map call sound orderly => ?_) (fun map call sound => sound.perform) empty
    orderly
  exact ⟨unmoved_of_right, sound.right_of_unmoved orderly⟩

/-- A process with the hash of another one gets a port from the middle, which it keeps. -/
theorem along_right_kept : Along perform Right OrderedMap.empty
    [.get ⟨0, 0, 0⟩, .get ⟨0, 0, 3989⟩, .get ⟨0, 0, 3989⟩] := by
  have orderly : Along perform Orderly OrderedMap.empty
      [.get ⟨0, 0, 0⟩, .get ⟨0, 0, 3989⟩, .get ⟨0, 0, 3989⟩] := ⟨trivial, trivial, trivial, trivial⟩
  refine (along_right_iff orderly).2 ⟨fun _ => nofun, ?_, ?_, trivial⟩
  · intro free
    exact absurd free (by decide)
  · intro free
    exact absurd free (by decide)

/-- When the other process frees its port, the process gets a second one. -/
theorem getUnusedPort_moves :
    let map : TPortMap := ([.get ⟨0, 0, 0⟩, .get ⟨0, 0, 3989⟩, .free ⟨0, 0, 0⟩ 61001] :
      List PortCall).foldl perform OrderedMap.empty
    map.get 62001 = some ⟨0, 0, 3989⟩ ∧ (map.getUnusedPort ⟨0, 0, 3989⟩).1 = 61001 ∧
      (map.getUnusedPort ⟨0, 0, 3989⟩).2.get 62001 = some ⟨0, 0, 3989⟩ := by
  decide

end Runs

end TPortMap

end Spp
