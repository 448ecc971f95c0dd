import Mathlib.Data.List.Rotate
import Mathlib.Data.List.Sort
import Spp.AsyncFrame.RouteMgr

/-!
# Static routes

The routes of `async_frame/StaticRoute.cpp`, which are used while the agent is not there.  They are
read from a file whenever it has changed, and a route that was read once stays.  The map of the
routes has the keys of `CRouteMgr`: the modules share the routes of a negative command.
-/

namespace Spp

open AsyncFrame (routeID2RouteKey)

namespace CStaticRoute

/-- `route_item_t` -/
structure RouteItem where
  ip : Int
  port : Nat
deriving DecidableEq

/-- `compare_route` -/
def compareRoute (item1 item2 : RouteItem) : Int :=
  if item1.ip < item2.ip then -1
  else if item1.ip > item2.ip then 1
  else if item1.port < item2.port then -1
  else if item1.port > item2.port then 1
  else 0

/-- `static_route_t`, but for its key. -/
structure StaticRoute where
  routeItemVec : List RouteItem
  pollIndex : Nat

namespace StaticRoute

/-- The constructor. -/
def new : StaticRoute := ⟨[], 0⟩

/-- `AddRoute`: a route that is there already is not added. -/
def addRoute (route : StaticRoute) (item : RouteItem) : StaticRoute :=
  if item ∈ route.routeItemVec then route
  else { route with routeItemVec := route.routeItemVec ++ [item] }

/-- `SortRoute` -/
def sortRoute (route : StaticRoute) : StaticRoute :=
  { route with
    routeItemVec := route.routeItemVec.mergeSort fun item1 item2 => compareRoute item1 item2 ≤ 0 }

/-- `GetRoute` in turn: the route, or `false`.  An index outside of the vector is a failure. -/
def getRoute (route : StaticRoute) : Option (Option RouteItem × StaticRoute) :=
  if route.routeItemVec.isEmpty then some (none, route)
  else do
    let item ← route.routeItemVec[route.pollIndex]?
    let pollIndex :=
      if route.pollIndex + 1 ≥ route.routeItemVec.length then 0 else route.pollIndex + 1
    return (some item, { route with pollIndex })

/-- `GetRoute` by a key. -/
def getRouteByKey (route : StaticRoute) (key : Nat) : Option RouteItem :=
  if route.routeItemVec.isEmpty then none
  else route.routeItemVec[key % route.routeItemVec.length]?

end StaticRoute

/-- `_routeMap` -/
abbrev RouteMap := BitVec 64 → Option StaticRoute

/-- A line of the file. -/
structure Line where
  modid : BitVec 32
  cmdid : BitVec 32
  item : RouteItem
deriving DecidableEq

/-- `_route_key` -/
def Line.routeKey (line : Line) : BitVec 64 := routeID2RouteKey line.modid line.cmdid

/-- `AddRoute`, which inserts a new `static_route_t` if there is none with the key. -/
def addRoute (map : RouteMap) (line : Line) : RouteMap :=
  Function.update map line.routeKey
    (some (((map line.routeKey).getD .new).addRoute line.item))

/-- `SortRouteTable` -/
def sortRouteTable (map : RouteMap) : RouteMap := fun key => (map key).map StaticRoute.sortRoute

/-- `ReloadRouteTable`, with the lines up to the end of the file or to an address that is none. -/
def reloadRouteTable (map : RouteMap) (lines : List Line) : RouteMap :=
  sortRouteTable (lines.foldl addRoute map)

/-- The codes `NoRouteKey`, `NoRoute` and `GetRouteSuccess`. -/
inductive Routed
  | noRouteKey
  | noRoute
  | route (item : RouteItem)
deriving DecidableEq

/-- What `GetRoute` makes of the result of `static_route_t`. -/
def Routed.of : Option RouteItem → Routed
  | none => .noRoute
  | some item => .route item

/-- `GetRoute` in turn. -/
def getRoute (modid cmdid : BitVec 32) (map : RouteMap) : Option (Routed × RouteMap) :=
  match map (routeID2RouteKey modid cmdid) with
  | none => some (.noRouteKey, map)
  | some route => do
      let (item, route) ← route.getRoute
      return (.of item, Function.update map (routeID2RouteKey modid cmdid) (some route))

/-- `GetRoute` by a key. -/
def getRouteByKey (map : RouteMap) (modid cmdid : BitVec 32) (key : Nat) : Routed :=
  match map (routeID2RouteKey modid cmdid) with
  | none => .noRouteKey
  | some route => .of (route.getRouteByKey key)

/-- What some calls in a row give. -/
def getRoutes (modid cmdid : BitVec 32) : Nat → RouteMap → Option (List Routed × RouteMap)
  | 0, map => some ([], map)
  | calls + 1, map => do
    let (first, map) ← getRoute modid cmdid map
    let (others, map) ← getRoutes modid cmdid calls map
    return (first :: others, map)

/-- The states of a process, and the lines it has read so far. -/
inductive Loaded : List Line → RouteMap → Prop where
  | new : Loaded [] fun _ => none
  | reload {lines : List Line} {map : RouteMap} (loaded : Loaded lines map) (more : List Line) :
      Loaded (lines ++ more) (reloadRouteTable map more)
  | get {lines : List Line} {map next : RouteMap} {routed : Routed} (loaded : Loaded lines map)
      (modid cmdid : BitVec 32) (returns : getRoute modid cmdid map = some (routed, next)) :
      Loaded lines next

/-! ## The routes of one key -/

/-- The order of the table. -/
def Before (item1 item2 : RouteItem) : Prop := compareRoute item1 item2 < 0

theorem compareRoute_neg {item1 item2 : RouteItem} : Before item1 item2 ↔
    item1.ip < item2.ip ∨ item1.ip = item2.ip ∧ item1.port < item2.port := by
  unfold Before compareRoute
  grind

instance : Std.Irrefl Before := ⟨fun item => by simp [compareRoute_neg]⟩

instance : Std.Antisymm Before := ⟨fun item1 item2 => by grind [compareRoute_neg]⟩

/-- The vector has each route that was read once, and the index is inside. -/
structure Listed (items : List RouteItem) (route : StaticRoute) : Prop where
  nodup : route.routeItemVec.Nodup
  mem_iff : ∀ item, item ∈ route.routeItemVec ↔ item ∈ items
  inside : route.pollIndex < route.routeItemVec.length ∨ route.pollIndex = 0

/-- The vector is in order as well. -/
structure Table (items : List RouteItem) (route : StaticRoute) : Prop
    extends Listed items route where
  sorted : route.routeItemVec.Pairwise Before

variable {items : List RouteItem} {route : StaticRoute}

theorem Listed.addRoute (listed : Listed items route) (item : RouteItem) :
    Listed (items ++ [item]) (route.addRoute item) := by
  obtain ⟨nodup, mem_iff, inside⟩ := listed
  unfold StaticRoute.addRoute
  split <;> rename_i known
  · exact ⟨nodup, by grind, inside⟩
  · refine ⟨List.nodup_append.2 ⟨nodup, by simp, by grind⟩, by grind, ?_⟩
    dsimp only
    rw [List.length_append]
    omega

theorem Listed.sortRoute (listed : Listed items route) : Table items route.sortRoute := by
  have perm := List.mergeSort_perm route.routeItemVec
    fun item1 item2 => compareRoute item1 item2 ≤ 0
  have nodup := perm.nodup_iff.2 listed.nodup
  refine ⟨⟨nodup, fun item => perm.mem_iff.trans (listed.mem_iff item), ?_⟩, ?_⟩
  · rw [StaticRoute.sortRoute, perm.length_eq]
    exact listed.inside
  · have sorted := @List.pairwise_mergeSort _
      (fun item1 item2 : RouteItem => decide (compareRoute item1 item2 ≤ 0))
      (by simp only [compareRoute]; grind) (by simp only [compareRoute]; grind) route.routeItemVec
    refine (sorted.and nodup).imp fun {item1 item2} ⟨least, apart⟩ => ?_
    cases item1
    cases item2
    simp only [Before, compareRoute] at least ⊢
    grind

theorem Table.get (table : Table items route) {item : Option RouteItem} {next : StaticRoute}
    (returns : route.getRoute = some (item, next)) : Table items next := by
  unfold StaticRoute.getRoute at returns
  split at returns
  · cases returns
    exact table
  · obtain ⟨found, -, tail⟩ := Option.bind_eq_some_iff.1 returns
    cases tail
    refine { table with inside := ?_ }
    dsimp only
    split <;> omega

theorem Table.index_lt (table : Table items route) (filled : items ≠ []) :
    route.pollIndex < route.routeItemVec.length := by
  obtain ⟨item, member⟩ := List.exists_mem_of_ne_nil _ filled
  have nonempty := List.length_pos_of_mem ((table.mem_iff item).2 member)
  exact table.inside.elim id fun zero => by rwa [zero]

theorem StaticRoute.getRoute_eq {vec : List RouteItem} {index : Nat} (inside : index < vec.length) :
    (⟨vec, index⟩ : StaticRoute).getRoute =
      some (some vec[index], ⟨vec, (index + 1) % vec.length⟩) := by
  have filled : vec ≠ [] := List.ne_nil_of_length_pos (by omega)
  have next : (if index + 1 ≥ vec.length then 0 else index + 1) = (index + 1) % vec.length := by
    split
    · rw [show index + 1 = vec.length by omega, Nat.mod_self]
    · rw [Nat.mod_eq_of_lt (by omega)]
  simp [getRoute, filled, inside, next]

/-! ## The map -/

/-- The routes of the lines with a key. -/
def itemsAt (lines : List Line) (key : BitVec 64) : List RouteItem :=
  (lines.filter fun line => line.routeKey = key).map Line.item

/-- The map has the routes of the lines, and no other keys. -/
def Maps (holds : List RouteItem → StaticRoute → Prop) (lines : List Line) (map : RouteMap) :
    Prop :=
  ∀ key, (map key = none ∧ itemsAt lines key = []) ∨
    ∃ route, map key = some route ∧ itemsAt lines key ≠ [] ∧ holds (itemsAt lines key) route

variable {lines : List Line} {map : RouteMap} {modid cmdid : BitVec 32}

theorem Maps.foldl (maps : Maps Listed lines map) (more : List Line) :
    Maps Listed (lines ++ more) (more.foldl addRoute map) := by
  induction more generalizing lines map with
  | nil => rwa [List.append_nil]
  | cons first more induction =>
      have added : Maps Listed (lines ++ [first]) (addRoute map first) := by
        intro key
        rcases eq_or_ne key first.routeKey with rfl | apart
        · refine .inr ⟨_, Function.update_self .., by simp [itemsAt], ?_⟩
          have old : Listed (itemsAt lines first.routeKey) ((map first.routeKey).getD .new) := by
            obtain ⟨is_none, nothing⟩ | ⟨route, is_some, -, listed⟩ := maps first.routeKey
            · rw [is_none, nothing]
              exact ⟨.nil, fun _ => Iff.rfl, .inr rfl⟩
            · rwa [is_some]
          simpa [itemsAt] using old.addRoute first.item
        · have same : itemsAt (lines ++ [first]) key = itemsAt lines key := by
            simp [itemsAt, apart.symm]
          rw [addRoute, Function.update_of_ne apart, same]
          exact maps key
      have later := induction added
      rwa [List.append_assoc] at later

theorem Maps.reload (maps : Maps Table lines map) (more : List Line) :
    Maps Table (lines ++ more) (reloadRouteTable map more) := by
  have listed : Maps Listed lines map := fun key =>
    (maps key).imp_right fun ⟨route, found, filled, table⟩ => ⟨route, found, filled, table.toListed⟩
  intro key
  obtain ⟨is_none, nothing⟩ | ⟨route, found, filled, here⟩ := listed.foldl more key
  · exact .inl ⟨by rw [reloadRouteTable, sortRouteTable, is_none, Option.map_none], nothing⟩
  · exact .inr ⟨_, by rw [reloadRouteTable, sortRouteTable, found, Option.map_some], filled,
      here.sortRoute⟩

theorem Maps.get (maps : Maps Table lines map) {routed : Routed} {next : RouteMap}
    (returns : getRoute modid cmdid map = some (routed, next)) : Maps Table lines next := by
  unfold getRoute at returns
  split at returns
  · cases returns
    exact maps
  · rename_i route is_route
    obtain ⟨⟨item, after⟩, gets, tail⟩ := Option.bind_eq_some_iff.1 returns
    cases tail
    intro key
    rcases eq_or_ne key (routeID2RouteKey modid cmdid) with rfl | apart
    · obtain ⟨is_none, -⟩ | ⟨_, found, filled, table⟩ := maps (routeID2RouteKey modid cmdid)
      · cases is_none.symm.trans is_route
      · cases found.symm.trans is_route
        exact .inr ⟨after, Function.update_self .., filled, table.get gets⟩
    · rw [Function.update_of_ne apart]
      exact maps key

theorem Loaded.maps (loaded : Loaded lines map) : Maps Table lines map := by
  induction loaded with
  | new => exact fun _ => .inl ⟨rfl, rfl⟩
  | reload _ more induction => exact induction.reload more
  | get _ modid cmdid returns induction => exact induction.get returns

/-- The key of a command that is not negative belongs to one module. -/
theorem mem_itemsAt (nonneg : 0 ≤ cmdid.toInt) {item : RouteItem} :
    item ∈ itemsAt lines (routeID2RouteKey modid cmdid) ↔ ⟨modid, cmdid, item⟩ ∈ lines := by
  simp only [itemsAt, List.mem_map, List.mem_filter, decide_eq_true_eq, Line.routeKey,
    AsyncFrame.CRouteMgr.routeID2RouteKey_inj nonneg]
  constructor
  · rintro ⟨line, ⟨member, rfl, rfl⟩, rfl⟩
    exact member
  · exact fun member => ⟨_, ⟨member, rfl, rfl⟩, rfl⟩

/-- Two processes that have read the same routes of a module and a command that is not negative send
a key to the same address, in whatever order the lines stood in their files and whatever routes they
have given before. -/
theorem loaded_getRouteByKey {others : List Line} {other : RouteMap} (nonneg : 0 ≤ cmdid.toInt)
    (loaded : Loaded lines map) (elsewhere : Loaded others other)
    (same : ∀ item, ⟨modid, cmdid, item⟩ ∈ lines ↔ ⟨modid, cmdid, item⟩ ∈ others) (key : Nat) :
    getRouteByKey map modid cmdid key = getRouteByKey other modid cmdid key := by
  have items_iff (item : RouteItem) : item ∈ itemsAt lines (routeID2RouteKey modid cmdid) ↔
      item ∈ itemsAt others (routeID2RouteKey modid cmdid) := by
    rw [mem_itemsAt nonneg, mem_itemsAt nonneg, same]
  unfold getRouteByKey
  obtain ⟨is_none, nothing⟩ | ⟨route, found, filled, table⟩ :=
    loaded.maps (routeID2RouteKey modid cmdid)
  all_goals
    obtain ⟨is_none', nothing'⟩ | ⟨route', found', filled', table'⟩ :=
      elsewhere.maps (routeID2RouteKey modid cmdid)
  · rw [is_none, is_none']
  · rw [nothing] at items_iff
    exact absurd (List.eq_nil_iff_forall_not_mem.2 fun item =>
      (items_iff item).2.mt (by simp)) filled'
  · rw [nothing'] at items_iff
    exact absurd (List.eq_nil_iff_forall_not_mem.2 fun item =>
      (items_iff item).1.mt (by simp)) filled
  · have vec_eq : route.routeItemVec = route'.routeItemVec := by
      refine table.sorted.eq_of_mem_iff table'.sorted fun item => ?_
      rw [table.mem_iff, table'.mem_iff, items_iff]
    rw [found, found']
    simp only [StaticRoute.getRouteByKey, vec_eq]

/-- Calls in a row give the routes from the index on, around the end of the vector. -/
theorem getRoutes_eq {calls : Nat} {vec : List RouteItem} {index : Nat}
    (found : map (routeID2RouteKey modid cmdid) = some ⟨vec, index⟩) (inside : index < vec.length)
    (few : calls ≤ vec.length) :
    getRoutes modid cmdid calls map = some (((vec.rotate index).take calls).map .route,
      Function.update map (routeID2RouteKey modid cmdid)
        (some ⟨vec, (index + calls) % vec.length⟩)) := by
  induction calls generalizing map index with
  | zero =>
      rw [getRoutes, List.take_zero, Nat.add_zero, Nat.mod_eq_of_lt inside, ← found,
        Function.update_eq_self, List.map_nil]
  | succ calls induction =>
      have rest := @induction (Function.update map (routeID2RouteKey modid cmdid)
        (some ⟨vec, (index + 1) % vec.length⟩)) _ (Function.update_self ..)
        (Nat.mod_lt _ (by omega)) (Nat.le_of_succ_le few)
      have turn : (vec.rotate index).take (calls + 1) =
          vec[index] :: (vec.rotate ((index + 1) % vec.length)).take calls := by
        rw [List.rotate_mod, List.rotate_eq_drop_append_take inside.le,
          List.drop_eq_getElem_cons inside, List.rotate_eq_drop_append_take (by omega),
          List.take_succ_eq_append_getElem inside, List.cons_append, List.take_succ_cons,
          ← List.append_assoc]
        exact congrArg _ (List.take_append_of_le_length (by simp; omega)).symm
      rw [getRoutes, getRoute, found]
      simp only [StaticRoute.getRoute_eq inside, Option.bind_eq_bind, Option.bind_some, rest,
        Option.pure_def]
      rw [turn, Function.update_idem]
      simp [Routed.of, Nat.add_assoc, Nat.add_comm 1]

/-- The number of routes of a module and a command. -/
def routeNum (map : RouteMap) (modid cmdid : BitVec 32) : Nat :=
  (map (routeID2RouteKey modid cmdid)).elim 0 fun route => route.routeItemVec.length

/-- As many calls in a row as there are routes give each route once. -/
theorem loaded_getRoutes (nonneg : 0 ≤ cmdid.toInt) (loaded : Loaded lines map) :
    ∃ items : List RouteItem,
      getRoutes modid cmdid (routeNum map modid cmdid) map = some (items.map .route, map) ∧
      ∀ item, items.count item = if ⟨modid, cmdid, item⟩ ∈ lines then 1 else 0 := by
  simp only [← mem_itemsAt nonneg, routeNum]
  obtain ⟨is_none, nothing⟩ | ⟨⟨vec, index⟩, found, filled, table⟩ :=
    loaded.maps (routeID2RouteKey modid cmdid)
  · exact ⟨[], by rw [is_none]; rfl, fun item => by simp [nothing]⟩
  · have inside : index < vec.length := table.index_lt filled
    refine ⟨vec.rotate index, ?_, fun item => ?_⟩
    · rw [found, Option.elim_some, getRoutes_eq found inside le_rfl,
        List.take_of_length_le (by simp), Nat.add_mod_right, Nat.mod_eq_of_lt inside, ← found,
        Function.update_eq_self]
    · rw [(List.rotate_perm _ _).count_eq]
      split <;> rename_i known
      · exact List.count_eq_one_of_mem table.nodup ((table.mem_iff item).2 known)
      · exact List.count_eq_zero_of_not_mem (known ∘ (table.mem_iff item).1)

/-- Lines of two modules; the second file has them in another order. -/
def sampleLines : List Line := [⟨1, 4, ⟨2, 80⟩⟩, ⟨3, 4, ⟨9, 80⟩⟩, ⟨1, 4, ⟨1, 80⟩⟩]

theorem loaded_getRouteByKey_swapped :
    getRouteByKey (reloadRouteTable (fun _ => none) sampleLines) 1 4 5 =
      getRouteByKey (reloadRouteTable (fun _ => none) sampleLines.reverse) 1 4 5 :=
  loaded_getRouteByKey (by decide) (.reload .new _) (.reload .new _)
    (fun _ => List.mem_reverse.symm) 5

theorem Loaded.isSome_getRoute (loaded : Loaded lines map) (modid cmdid : BitVec 32) :
    (getRoute modid cmdid map).isSome := by
  unfold getRoute
  obtain ⟨is_none, -⟩ | ⟨⟨vec, index⟩, found, filled, table⟩ :=
    loaded.maps (routeID2RouteKey modid cmdid)
  · rw [is_none]
    rfl
  · rw [found]
    simp [StaticRoute.getRoute_eq (show index < vec.length from table.index_lt filled)]

/-- Two routes in turn, after a call of `GetRoute` has given one of them. -/
theorem loaded_getRoutes_once :
    ∃ first map, getRoute 1 4 (reloadRouteTable (fun _ => none) sampleLines) = some (first, map) ∧
      ∃ items : List RouteItem,
        getRoutes 1 4 (routeNum map 1 4) map = some (items.map .route, map) ∧
        ∀ item, items.count item = if ⟨1, 4, item⟩ ∈ sampleLines then 1 else 0 := by
  have loaded := Loaded.new.reload sampleLines
  obtain ⟨⟨first, map⟩, returns⟩ := Option.isSome_iff_exists.1 (loaded.isSome_getRoute 1 4)
  exact ⟨first, map, returns, loaded_getRoutes (by decide) (loaded.get 1 4 returns)⟩

end CStaticRoute
end Spp
