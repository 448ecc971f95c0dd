import Spp.Nest.ProxyPort

/-!
# The ports of a request, `AllocProxyPort`

`TMsgAddProcReq::AllocProxyPort` of `nest/agent/agent_msg.cpp` takes a port for every proxy of a
request, one after the other.  If one fails, it frees the ports of the processes up to the last one
that succeeded, by `FreeUsedPort`; if none has succeeded, up to the first one.
-/

namespace Spp

/-- An entry of the request. -/
structure NestProcBase where
  key : TProcKey
  proxyPort : Nat
  proxyIp : String

/-- What `CheckAllocPort` returns, with the entry and the table that it leaves. -/
structure PortChecked where
  ret : Int
  errmsg : Option String
  conf : NestProcBase
  map : TPortMap

/-- What `AllocProxyPort` returns, with the request and the table that it leaves. -/
structure PortAlloc where
  ret : Int
  errmsg : Option String
  confs : List NestProcBase
  map : TPortMap
  allocCount : Nat

namespace TPortMap

/-- `CheckAllocPort`; `nodeIp` is `GetListenIp`. -/
def checkAllocPort (nodeIp : String) (map : TPortMap) (conf : NestProcBase) : PortChecked :=
  let service := conf.key.serviceId
  let type := conf.key.procType
  let no := conf.key.procNo
  let port := conf.proxyPort
  if port = 0 then
    let (port, after) := map.getUnusedPort conf.key
    if port ≠ 0 then
      ⟨0, none, { conf with proxyPort := port, proxyIp := nodeIp }, after⟩
    else
      ⟨-1, s!"proc {service}-{type}-{no} proxy alloc port failed, failed!!", conf, after⟩
  else
    let (registered, after) := map.registProxyPort conf.key port
    if registered then
      ⟨0, none, { conf with proxyIp := nodeIp }, after⟩
    else
      ⟨-2, s!"proc {service}-{type}-{no} proxy regist port[{port}] failed!!", conf, after⟩

/-- Only proxies get ports. -/
def IsProxy (conf : NestProcBase) : Prop := conf.key.procType = 0

instance (conf : NestProcBase) : Decidable (IsProxy conf) := inferInstanceAs (Decidable (_ = _))

/-- The loop of `AllocProxyPort`, from index `i` on. -/
def allocLoop (nodeIp : String) :
    (i allocCount : Nat) → TPortMap → List NestProcBase → PortAlloc
  | _, allocCount, map, [] => ⟨0, none, [], map, allocCount⟩
  | i, allocCount, map, conf :: confs =>
      if IsProxy conf then
        let checked := map.checkAllocPort nodeIp conf
        if checked.ret < 0 then
          ⟨-1, checked.errmsg, checked.conf :: confs, checked.map, allocCount⟩
        else
          let rest := allocLoop nodeIp (i + 1) i checked.map confs
          { rest with confs := checked.conf :: rest.confs }
      else
        let rest := allocLoop nodeIp (i + 1) allocCount map confs
        { rest with confs := conf :: rest.confs }

/-- The entries that the roll-back of `AllocProxyPort` visits. -/
def PortAlloc.rolledBack (looped : PortAlloc) : List NestProcBase :=
  (looped.confs.take (looped.allocCount + 1)).filter fun conf => IsProxy conf

/-- The loop of the roll-back. -/
def rollBack (map : TPortMap) (confs : List NestProcBase) : TPortMap :=
  confs.foldl (fun map conf => map.freeUsedPort conf.key conf.proxyPort) map

/-- `AllocProxyPort` -/
def allocProxyPort (nodeIp : String) (map : TPortMap) (confs : List NestProcBase) : PortAlloc :=
  let looped := map.allocLoop nodeIp 0 0 confs
  if looped.ret < 0 then
    { looped with map := looped.map.rollBack (PortAlloc.rolledBack looped) }
  else
    looped

/-! ## The loop -/

variable {port i allocCount : Nat} {key : TProcKey} {confs : List NestProcBase}

section Loop

variable {nodeIp : String} {map : TPortMap} {conf : NestProcBase}

/-- `CheckAllocPort` fails and leaves the table, or the port of the entry is recorded, for the same
process, and nothing else changes. -/
theorem checkAllocPort_cases (nodeIp : String) (map : TPortMap) (conf : NestProcBase) :
    ((map.checkAllocPort nodeIp conf).ret < 0 ∧ (map.checkAllocPort nodeIp conf).map = map) ∨
    ((map.checkAllocPort nodeIp conf).ret = 0 ∧
      (map.checkAllocPort nodeIp conf).conf.key = conf.key ∧
      (map.checkAllocPort nodeIp conf).map.get (map.checkAllocPort nodeIp conf).conf.proxyPort =
        some conf.key ∧
      ((map.checkAllocPort nodeIp conf).map = map ∨
        map.get (map.checkAllocPort nodeIp conf).conf.proxyPort = none ∧
        (map.checkAllocPort nodeIp conf).map =
          map.set (map.checkAllocPort nodeIp conf).conf.proxyPort conf.key)) := by
  unfold checkAllocPort
  dsimp only
  by_cases unnamed : conf.proxyPort = 0
  · rw [if_pos unnamed]
    rcases getUnusedPort_cases map conf.key with ⟨port, eq, free, hashable, -⟩ | ⟨port, eq, has⟩ |
      ⟨eq, -⟩
    · have nonzero : port ≠ 0 := fun zero => absurd hashable.1 (zero ▸ by decide)
      rw [eq, if_pos nonzero]
      exact Or.inr ⟨rfl, rfl, OrderedMap.get_set_self, Or.inr ⟨free, rfl⟩⟩
    · rw [eq]
      dsimp only
      split_ifs
      · exact Or.inr ⟨rfl, rfl, has, Or.inl rfl⟩
      · exact Or.inl ⟨Int.negSucc_lt_zero 0, rfl⟩
    · rw [eq, if_neg (not_not_intro rfl)]
      exact Or.inl ⟨Int.negSucc_lt_zero 0, rfl⟩
  · rw [if_neg unnamed]
    cases at_port : map.get conf.proxyPort with
    | none =>
        rw [registProxyPort_of_free at_port]
        exact Or.inr ⟨rfl, rfl, OrderedMap.get_set_self, Or.inr ⟨at_port, rfl⟩⟩
    | some other =>
        rw [registProxyPort_of_used at_port]
        exact Or.inl ⟨Int.negSucc_lt_zero 1, rfl⟩

theorem checkAllocPort_keeps (has : map.get port = some key) :
    (map.checkAllocPort nodeIp conf).map.get port = some key := by
  rcases checkAllocPort_cases nodeIp map conf with ⟨-, eq⟩ | ⟨-, -, -, eq | ⟨free, eq⟩⟩
  · rwa [eq]
  · rwa [eq]
  · have ne : port ≠ (map.checkAllocPort nodeIp conf).conf.proxyPort := by
      rintro rfl
      rw [free] at has
      cases has
    rwa [eq, OrderedMap.get_set_of_ne ne]

theorem allocLoop_keeps (has : map.get port = some key) :
    (map.allocLoop nodeIp i allocCount confs).map.get port = some key := by
  induction confs generalizing map i allocCount with
  | nil => exact has
  | cons conf confs induction =>
      rw [allocLoop]
      dsimp only
      split_ifs
      · exact checkAllocPort_keeps has
      · exact induction (checkAllocPort_keeps has)
      · exact induction has

theorem allocLoop_allocCount (le : allocCount ≤ i) :
    allocCount ≤ (map.allocLoop nodeIp i allocCount confs).allocCount := by
  induction confs generalizing map i allocCount with
  | nil => exact le_rfl
  | cons conf confs induction =>
      rw [allocLoop]
      dsimp only
      split_ifs
      · exact le_rfl
      · exact le.trans (induction (Nat.le_succ i))
      · exact induction (le.trans (Nat.le_succ i))

theorem allocLoop_recorded (succeeds : (map.allocLoop nodeIp i allocCount confs).ret = 0) :
    ∀ conf ∈ (map.allocLoop nodeIp i allocCount confs).confs, IsProxy conf →
      (map.allocLoop nodeIp i allocCount confs).map.get conf.proxyPort = some conf.key := by
  induction confs generalizing map i allocCount with
  | nil => exact nofun
  | cons conf confs induction =>
      rw [allocLoop] at succeeds ⊢
      dsimp only at succeeds ⊢
      split_ifs at succeeds ⊢ with proxy failed
      · cases succeeds
      · obtain ⟨failing, -⟩ | ⟨-, key_eq, recorded, -⟩ := checkAllocPort_cases nodeIp map conf
        · exact absurd failing failed
        · intro other member is_proxy
          rcases List.mem_cons.1 member with rfl | later
          · exact allocLoop_keeps (key_eq ▸ recorded)
          · exact induction succeeds other later is_proxy
      · intro other member is_proxy
        rcases List.mem_cons.1 member with rfl | later
        · exact absurd is_proxy proxy
        · exact induction succeeds other later is_proxy

/-- What the loop records is the port of an entry up to `alloc_count`. -/
theorem allocLoop_new (has : (map.allocLoop nodeIp i allocCount confs).map.get port = some key) :
    map.get port = some key ∨ ∃ j conf,
      (map.allocLoop nodeIp i allocCount confs).confs[j]? = some conf ∧
      i + j ≤ (map.allocLoop nodeIp i allocCount confs).allocCount ∧ IsProxy conf ∧
      conf.proxyPort = port ∧ conf.key = key := by
  induction confs generalizing map i allocCount with
  | nil => exact Or.inl has
  | cons conf confs induction =>
      rw [allocLoop] at has ⊢
      dsimp only at has ⊢
      have cases_eq := checkAllocPort_cases nodeIp map conf
      split_ifs at has ⊢ with proxy failed
      · obtain ⟨-, eq⟩ | ⟨succeeded, -⟩ := cases_eq
        · exact Or.inl (eq ▸ has)
        · omega
      · rcases induction has with before | ⟨j, found, at_j, le, is_proxy, port_eq, found_key⟩
        · obtain ⟨failing, -⟩ | ⟨-, key_eq, -, eq | ⟨-, eq⟩⟩ := cases_eq
          · exact absurd failing failed
          · exact Or.inl (eq ▸ before)
          · rw [eq] at before
            by_cases same : port = (map.checkAllocPort nodeIp conf).conf.proxyPort
            · rw [same, OrderedMap.get_set_self] at before
              refine Or.inr ⟨0, _, rfl, allocLoop_allocCount (Nat.le_succ i), ?_, same.symm, ?_⟩
              · exact (congrArg TProcKey.procType key_eq).trans proxy
              · exact key_eq.trans (Option.some.inj before)
            · exact Or.inl (by rwa [OrderedMap.get_set_of_ne same] at before)
        · have later : i + (j + 1) ≤ _ := Nat.add_right_comm i 1 j ▸ le
          exact Or.inr ⟨j + 1, found, at_j, later, is_proxy, port_eq, found_key⟩
      · rcases induction has with before | ⟨j, found, at_j, le, is_proxy, port_eq, found_key⟩
        · exact Or.inl before
        · have later : i + (j + 1) ≤ _ := Nat.add_right_comm i 1 j ▸ le
          exact Or.inr ⟨j + 1, found, at_j, later, is_proxy, port_eq, found_key⟩

end Loop

/-! ## The roll-back -/

section RollBack

variable {map : TPortMap}

theorem count_freeUsedPort (map : TPortMap) (proc : TProcKey) (port : Nat) (key : TProcKey) :
    (map.freeUsedPort proc port).count key = map.count key - if proc = key then 1 else 0 := by
  rcases freeUsedPort_cases map proc port with ⟨erased, eq, has, -⟩ | ⟨eq, portless⟩
  · rw [eq, OrderedMap.count_erase has, Nat.add_sub_cancel]
  · rw [eq]
    split_ifs with same
    · rw [← same, OrderedMap.count_eq_zero.2 portless]
    · rfl

theorem count_rollBack (map : TPortMap) (confs : List NestProcBase) (key : TProcKey) :
    (map.rollBack confs).count key =
      map.count key - confs.countP fun conf => conf.key = key := by
  induction confs generalizing map with
  | nil => rfl
  | cons conf confs induction =>
      have step := induction (map.freeUsedPort conf.key conf.proxyPort)
      rw [count_freeUsedPort] at step
      rw [List.countP_cons, Nat.add_comm, ← Nat.sub_sub]
      simp only [decide_eq_true_eq]
      exact step

theorem get_of_rollBack (has : (map.rollBack confs).get port = some key) :
    map.get port = some key := by
  induction confs generalizing map with
  | nil => exact has
  | cons conf confs induction => exact get_of_freeUsedPort (induction has)

theorem rollBack_frees {conf : NestProcBase} (member : conf ∈ confs) :
    (map.rollBack confs).get conf.proxyPort ≠ some conf.key := by
  induction confs generalizing map with
  | nil => cases member
  | cons first confs induction =>
      rcases List.mem_cons.1 member with rfl | later
      · intro has
        have still :
            (map.freeUsedPort conf.key conf.proxyPort).get conf.proxyPort = some conf.key :=
          @get_of_rollBack _ _ confs _ has
        have before := get_of_freeUsedPort still
        rw [freeUsedPort, if_pos before, OrderedMap.get_erase_self] at still
        cases still
      · exact induction later

end RollBack

/-- The table is as before if and only if the roll-back visits every process that had a port as
often as the loop has recorded one for it. -/
theorem rollBack_eq_iff {nodeIp : String} {map : TPortMap} :
    (map.allocLoop nodeIp 0 0 confs).map.rollBack
        (PortAlloc.rolledBack (map.allocLoop nodeIp 0 0 confs)) = map ↔
      ∀ key, map.Portless key ∨ (map.allocLoop nodeIp 0 0 confs).map.count key = map.count key +
        (PortAlloc.rolledBack (map.allocLoop nodeIp 0 0 confs)).countP
          fun conf => conf.key = key := by
  have counts := count_rollBack (map.allocLoop nodeIp 0 0 confs).map
    (PortAlloc.rolledBack (map.allocLoop nodeIp 0 0 confs))
  constructor
  · intro same key
    have count := counts key
    rw [same] at count
    rcases Nat.eq_zero_or_pos (map.count key) with zero | positive
    · exact Or.inl (OrderedMap.count_eq_zero.1 zero)
    · exact Or.inr (by omega)
  · intro balanced
    refine OrderedMap.eq_of_count_le (fun port key has => ?_) fun key => ?_
    · rcases allocLoop_new (get_of_rollBack has) with before | ⟨j, conf, at_j, le, proxy, rfl, rfl⟩
      · exact before
      · refine absurd has (rollBack_frees (List.mem_filter.2 ⟨?_, decide_eq_true proxy⟩))
        rw [Nat.zero_add] at le
        exact List.mem_of_getElem? ((List.getElem?_take_of_lt (Nat.lt_succ_of_le le)).trans at_j)
    · rw [counts key]
      rcases balanced key with portless | equal
      · rw [OrderedMap.count_eq_zero.2 portless]
        exact Nat.zero_le _
      · omega

/-! ## Processes that had a port -/

section Held

variable {nodeIp : String} {map : TPortMap} {conf : NestProcBase}

/-- An entry gets no port: the one that it names is in use, or there is none left. -/
def Refuses (map : TPortMap) (conf : NestProcBase) : Prop :=
  if conf.proxyPort = 0 then (map.getUnusedPort conf.key).1 = 0 else map.get conf.proxyPort ≠ none

instance (map : TPortMap) (conf : NestProcBase) : Decidable (map.Refuses conf) :=
  inferInstanceAs (Decidable (ite _ _ _))

/-- Up to the entry that is refused, a process asks for further ports only: its entries name a port,
or the port that its hash gives is free. -/
def AsksAnew (nodeIp : String) (key : TProcKey) : TPortMap → List NestProcBase → Prop
  | _, [] => True
  | map, conf :: confs =>
      if IsProxy conf then
        ¬ map.Refuses conf →
          (conf.key = key → conf.proxyPort ≠ 0 ∨ map.get (hashedPort key) = none) ∧
            AsksAnew nodeIp key (map.checkAllocPort nodeIp conf).map confs
      else
        AsksAnew nodeIp key map confs

/-- The process of the first entry has no port if the entry is refused, and every process that has a
port asks for further ports only. -/
def Restorable (nodeIp : String) (map : TPortMap) (confs : List NestProcBase) : Prop :=
  (∀ conf ∈ confs.head?, IsProxy conf → map.Refuses conf → map.Portless conf.key) ∧
    ∀ key, map.Portless key ∨ AsksAnew nodeIp key map confs

theorem checkAllocPort_neg : (map.checkAllocPort nodeIp conf).ret < 0 ↔ map.Refuses conf := by
  unfold checkAllocPort Refuses
  dsimp only
  by_cases unnamed : conf.proxyPort = 0
  · rw [if_pos unnamed, if_pos unnamed]
    by_cases zero : (map.getUnusedPort conf.key).1 = 0 <;> simp [zero]
  · rw [if_neg unnamed, if_neg unnamed, registProxyPort]
    cases map.get conf.proxyPort <;> simp

theorem checkAllocPort_refused (refused : map.Refuses conf) :
    (map.checkAllocPort nodeIp conf).map = map := by
  rcases checkAllocPort_cases nodeIp map conf with ⟨-, eq⟩ | ⟨zero, -⟩
  · exact eq
  · have negative := (@checkAllocPort_neg nodeIp _ _).2 refused
    omega

/-- The entry of a process that has a port records a further one, or the process keeps those that it
has. -/
theorem count_checkAllocPort (held : ¬ map.Portless key) (granted : ¬ map.Refuses conf) :
    (map.checkAllocPort nodeIp conf).map.count key = map.count key +
      if conf.key = key ∧ (conf.proxyPort ≠ 0 ∨ map.get (hashedPort key) = none) then 1 else 0 := by
  unfold Refuses at granted
  unfold checkAllocPort
  dsimp only
  by_cases unnamed : conf.proxyPort = 0
  · rw [if_pos unnamed] at granted ⊢
    rw [if_pos granted]
    simp only [unnamed, ne_eq, not_true_eq_false, false_or]
    cases at_hash : map.get (hashedPort conf.key) with
    | none =>
        have eq : map.getUnusedPort conf.key =
            (hashedPort conf.key, map.set (hashedPort conf.key) conf.key) := by
          rw [getUnusedPort, at_hash]
        rw [eq, OrderedMap.count_set at_hash]
        grind
    | some item =>
        rcases getUnusedPort_cases map conf.key with ⟨port, eq, free, -, which⟩ | ⟨port, eq, -⟩ |
          ⟨eq, -⟩
        · rw [eq, OrderedMap.count_set free]
          grind
        · rw [eq]
          grind
        · rw [eq]
          grind
  · rw [if_neg unnamed] at granted ⊢
    rw [registProxyPort_of_free (not_not.1 granted), if_pos rfl,
      OrderedMap.count_set (not_not.1 granted)]
    simp [unnamed]

theorem held_checkAllocPort (held : ¬ map.Portless key) :
    ¬ (map.checkAllocPort nodeIp conf).map.Portless key := by
  unfold Portless at held ⊢
  push Not at held ⊢
  obtain ⟨port, has⟩ := held
  exact ⟨port, checkAllocPort_keeps has⟩

theorem key_checkAllocPort : (map.checkAllocPort nodeIp conf).conf.key = conf.key := by
  unfold checkAllocPort
  dsimp only
  split_ifs <;> rfl

/-- The visits of a process among the entries of the loop from index `i` on. -/
def visits (looped : PortAlloc) (i : Nat) (key : TProcKey) : Nat :=
  ((looped.confs.take (looped.allocCount + 1 - i)).filter fun conf => IsProxy conf).countP
    fun conf => conf.key = key

theorem visits_cons {rest : PortAlloc} {first : NestProcBase} (le : i ≤ rest.allocCount) :
    visits { rest with confs := first :: rest.confs } i key =
      visits rest (i + 1) key + if IsProxy first ∧ first.key = key then 1 else 0 := by
  have split : rest.allocCount + 1 - i = rest.allocCount + 1 - (i + 1) + 1 := by omega
  unfold visits
  dsimp only
  rw [split, List.take_succ_cons]
  by_cases proxy : IsProxy first <;> simp [List.countP_cons, proxy]

theorem visits_eq_zero {looped : PortAlloc} (lt : looped.allocCount < i) :
    visits looped i key = 0 := by
  rw [visits, show looped.allocCount + 1 - i = 0 by omega]
  rfl

theorem visits_cons_of_not {rest : PortAlloc} {first : NestProcBase} (worker : ¬ IsProxy first) :
    visits { rest with confs := first :: rest.confs } i key = visits rest (i + 1) key := by
  by_cases lt : rest.allocCount < i
  · rw [visits_eq_zero (lt.trans i.lt_succ_self)]
    exact visits_eq_zero lt
  · rw [visits_cons (not_lt.1 lt), if_neg fun both => worker both.1, Nat.add_zero]

/-- The loop records as many ports for a process that has one as the roll-back visits it, if and
only if the process asks for further ports only. -/
theorem allocLoop_visits (held : ¬ map.Portless key)
    (start : allocCount < i ∨ i = 0 ∧ allocCount = 0 ∧
      ∀ conf ∈ confs.head?, IsProxy conf → ¬ map.Refuses conf) :
    (map.allocLoop nodeIp i allocCount confs).map.count key ≤
        map.count key + visits (map.allocLoop nodeIp i allocCount confs) i key ∧
      ((map.allocLoop nodeIp i allocCount confs).map.count key =
          map.count key + visits (map.allocLoop nodeIp i allocCount confs) i key ↔
        AsksAnew nodeIp key map confs) := by
  induction confs generalizing map i allocCount with
  | nil => simp [allocLoop, visits, AsksAnew]
  | cons conf confs induction =>
      rw [allocLoop, AsksAnew]
      dsimp only
      by_cases proxy : IsProxy conf
      · rw [if_pos proxy, if_pos proxy]
        by_cases refused : map.Refuses conf
        · have lt : allocCount < i := start.resolve_right fun first =>
            first.2.2 conf rfl proxy refused
          rw [if_pos (checkAllocPort_neg.2 refused), visits_eq_zero lt]
          dsimp only
          rw [checkAllocPort_refused refused]
          simp [refused]
        · rw [if_neg (checkAllocPort_neg.not.2 refused),
            visits_cons (allocLoop_allocCount i.le_succ)]
          dsimp only
          have recorded := @count_checkAllocPort _ nodeIp _ _ held refused
          obtain ⟨le, equal⟩ := @induction (i + 1) i (map.checkAllocPort nodeIp conf).map
            (held_checkAllocPort held) (.inl i.lt_succ_self)
          have is_proxy : IsProxy (map.checkAllocPort nodeIp conf).conf :=
            (congrArg TProcKey.procType key_checkAllocPort).trans proxy
          simp only [is_proxy, key_checkAllocPort, true_and, refused, not_false_eq_true,
            forall_const]
          rw [← equal]
          split_ifs at recorded ⊢ <;> grind
      · obtain ⟨le, equal⟩ := @induction (i + 1) allocCount map held (.inl (by omega))
        rw [if_neg proxy, if_neg proxy]
        rw [visits_cons_of_not proxy]
        exact ⟨le, equal⟩

theorem rollBack_restores_iff :
    (∀ key, map.Portless key ∨ (map.allocLoop nodeIp 0 0 confs).map.count key = map.count key +
      (PortAlloc.rolledBack (map.allocLoop nodeIp 0 0 confs)).countP fun conf => conf.key = key) ↔
      map.Restorable nodeIp confs := by
  by_cases first : ∀ conf ∈ confs.head?, IsProxy conf → ¬ map.Refuses conf
  · have only_first : ∀ conf ∈ confs.head?, IsProxy conf → map.Refuses conf →
        map.Portless conf.key :=
      fun conf is_first proxy refused => absurd refused (first conf is_first proxy)
    rw [Restorable, and_iff_right only_first]
    refine forall_congr' fun key => ?_
    by_cases portless : map.Portless key
    · exact iff_of_true (.inl portless) (.inl portless)
    · exact or_congr_right (allocLoop_visits portless (.inr ⟨rfl, rfl, first⟩)).2
  · push Not at first
    obtain ⟨conf, is_first, proxy, refused⟩ := first
    obtain ⟨rest, rfl⟩ : ∃ rest, confs = conf :: rest := by
      cases confs with
      | nil => cases is_first
      | cons other rest => exact ⟨rest, by rw [Option.some.inj is_first]⟩
    -- the roll-back visits the entry that was refused
    have looped : map.allocLoop nodeIp 0 0 (conf :: rest) = ⟨-1,
        (map.checkAllocPort nodeIp conf).errmsg, (map.checkAllocPort nodeIp conf).conf :: rest, map,
        0⟩ := by
      rw [allocLoop, if_pos proxy, if_pos (checkAllocPort_neg.2 refused),
        checkAllocPort_refused refused]
    have is_proxy : IsProxy (map.checkAllocPort nodeIp conf).conf :=
      (congrArg TProcKey.procType key_checkAllocPort).trans proxy
    simp only [looped, PortAlloc.rolledBack, Restorable, AsksAnew, List.take_succ_cons,
      List.take_zero, List.filter_cons, is_proxy, decide_true, if_true, List.filter_nil,
      List.countP_cons, List.countP_nil, key_checkAllocPort, proxy, refused, not_true_eq_false,
      false_implies, or_true, implies_true, and_true]
    constructor
    · intro balanced other is_other _ _
      cases is_other
      rcases balanced conf.key with portless | equal
      · exact portless
      · simp at equal
    · intro portless key
      by_cases same : conf.key = key
      · exact .inl (same ▸ portless conf rfl proxy refused)
      · exact .inr (by simp [same])

end Held

/-- If `AllocProxyPort` fails, the table is as before if and only if the first entry of the request
is not one that is refused of a process with a port, and every process with a port asks for further
ports only.  If it succeeds, the port of every proxy is recorded for it. -/
theorem allocProxyPort_atomic_iff (nodeIp : String) (map : TPortMap) (confs : List NestProcBase) :
    ((map.allocProxyPort nodeIp confs).ret < 0 →
      ((map.allocProxyPort nodeIp confs).map = map ↔ map.Restorable nodeIp confs)) ∧
    ((map.allocProxyPort nodeIp confs).ret = 0 →
      ∀ conf ∈ (map.allocProxyPort nodeIp confs).confs, IsProxy conf →
        (map.allocProxyPort nodeIp confs).map.get conf.proxyPort = some conf.key) := by
  rw [allocProxyPort]
  by_cases fails : (map.allocLoop nodeIp 0 0 confs).ret < 0
  · rw [if_pos fails]
    exact ⟨fun _ => rollBack_eq_iff.trans rollBack_restores_iff,
      fun succeeds => absurd fails (Int.not_lt.2 succeeds.ge)⟩
  · rw [if_neg fails]
    exact ⟨fun failing => absurd failing fails, allocLoop_recorded⟩

/-- Two processes with a port each. -/
def twoPorts : TPortMap := (OrderedMap.empty.set 61001 ⟨1, 0, 1⟩).set 61002 ⟨1, 0, 2⟩

/-- A worker, a process that asks for a further port, and one that asks for a port in use. -/
def threeEntries : List NestProcBase :=
  [⟨⟨1, 1, 1⟩, 0, ""⟩, ⟨⟨1, 0, 1⟩, 61003, ""⟩, ⟨⟨1, 0, 2⟩, 61001, ""⟩]

theorem allocProxyPort_atomic_further :
    (twoPorts.allocProxyPort "" threeEntries).ret < 0 ∧
      (twoPorts.allocProxyPort "" threeEntries).map = twoPorts := by
  refine ⟨by decide, ((allocProxyPort_atomic_iff "" _ _).1 (by decide)).2 ⟨?_, fun key => .inr ?_⟩⟩
  · rintro conf ⟨⟩ proxy
    exact absurd proxy (by decide)
  · simp [threeEntries, AsksAnew, IsProxy]

/-- A process that has port 61001 asks for port 61002, which is in use, and loses its own. -/
theorem allocProxyPort_loses :
    let after := twoPorts.allocProxyPort "" [⟨⟨1, 0, 1⟩, 61002, ""⟩]
    after.ret = -1 ∧ twoPorts.get 61001 = some ⟨1, 0, 1⟩ ∧ after.map.get 61001 = none := by
  decide

end TPortMap

end Spp
