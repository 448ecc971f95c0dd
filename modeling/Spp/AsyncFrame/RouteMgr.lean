import Mathlib.Tactic

/-!
# Connection limits of routes, `CRouteMgr`

`async_frame/RouteMgr.cpp` keeps the connection limits in a map whose 64-bit key has the `modid` in
its upper half and the `cmdid` in its lower half.  Both are signed.  All stateful routes, those with
a `cmdid` below 1, get the `cmdid` -1; its sign fills the upper half, so that their key is the same
for every `modid`.
-/

namespace Spp.AsyncFrame

/-- `RouteID2RouteKey` -/
def routeID2RouteKey (modid cmdid : BitVec 32) : BitVec 64 :=
  (modid.signExtend 64 <<< 32) ||| cmdid.signExtend 64

/-- `RouteKey2RouteID`: the `modid` and the `cmdid`. -/
def routeKey2RouteID (key : BitVec 64) : BitVec 32 × BitVec 32 :=
  ((key >>> 32).setWidth 32, (key &&& 0xFFFFFFFF#64).setWidth 32)

/-- `C_DEFAULT_MAX_NUM` -/
def cDefaultMaxNum : BitVec 32 := 3

/-- `CRouteMgr` -/
structure CRouteMgr where
  routeLimitMap : BitVec 64 → Option (BitVec 32)

/-- The arguments of `InitConnNumLimit`. -/
structure LimitCall where
  modid : BitVec 32
  cmdid : BitVec 32
  limit : BitVec 32

namespace CRouteMgr

/-- No limit is stored. -/
def empty : CRouteMgr := ⟨fun _ => none⟩

/-- The `cmdid` of the key. -/
def storedCmdid (cmdid : BitVec 32) : BitVec 32 := if cmdid.toInt < 1 then -1 else cmdid

/-- The limit that is stored. -/
def storedLimit (limit : BitVec 32) : BitVec 32 := if limit = 0 then cDefaultMaxNum else limit

/-- The key of a route. -/
def routeKey (modid cmdid : BitVec 32) : BitVec 64 :=
  (modid.signExtend 64 <<< 32) ||| (storedCmdid cmdid).signExtend 64

/-- `InitConnNumLimit` -/
def initConnNumLimit (mgr : CRouteMgr) (call : LimitCall) : CRouteMgr :=
  if call.modid.toInt < 1 then mgr
  else
    let key := routeKey call.modid call.cmdid
    match mgr.routeLimitMap key with
    | none => ⟨Function.update mgr.routeLimitMap key (some (storedLimit call.limit))⟩
    | some _ => mgr

/-- `GetConnNumLimit` -/
def getConnNumLimit (mgr : CRouteMgr) (modid cmdid : BitVec 32) : BitVec 32 :=
  if modid.toInt < 1 then 0 else (mgr.routeLimitMap (routeKey modid cmdid)).getD 0

/-- The manager after some calls of `InitConnNumLimit`. -/
def afterCalls (calls : List LimitCall) : CRouteMgr := calls.foldl initConnNumLimit empty

/-! ## The keys -/

variable {modid cmdid : BitVec 32}

section Keys

theorem routeKey2RouteID_cmdid :
    (routeKey2RouteID (routeID2RouteKey modid cmdid)).2 = cmdid := by
  unfold routeKey2RouteID routeID2RouteKey
  ext i lt
  have low : i < 64 := by omega
  have mask : (4294967295#32)[i] = true := BitVec.getElem_allOnes i lt
  simp [BitVec.getElem_signExtend, low, lt, mask]

theorem routeKey2RouteID_modid (nonneg : 0 ≤ cmdid.toInt) :
    (routeKey2RouteID (routeID2RouteKey modid cmdid)).1 = modid := by
  have msb : cmdid.msb = false := by
    rw [BitVec.msb_eq_toInt]
    exact decide_eq_false (Int.not_lt.2 nonneg)
  unfold routeKey2RouteID routeID2RouteKey
  ext i lt
  have low : i < 64 := by omega
  have high : 32 + i < 64 := by omega
  simp [BitVec.getElem_signExtend, low, high, lt, msb]

theorem routeKey2RouteID_modid_of_neg (neg : cmdid.toInt < 0) :
    (routeKey2RouteID (routeID2RouteKey modid cmdid)).1 = -1 := by
  have msb : cmdid.msb = true := by
    rw [BitVec.msb_eq_toInt]
    exact decide_eq_true neg
  unfold routeKey2RouteID routeID2RouteKey
  ext i lt
  have high : 32 + i < 64 := by omega
  have ones : (-1 : BitVec 32)[i] = true := BitVec.getElem_allOnes i lt
  rw [ones]
  simp [BitVec.getElem_signExtend, high, msb]

theorem routeKey2RouteID_iff :
    routeKey2RouteID (routeID2RouteKey modid cmdid) = (modid, cmdid) ↔
      0 ≤ cmdid.toInt ∨ modid = -1 := by
  rw [Prod.ext_iff, and_iff_left routeKey2RouteID_cmdid]
  rcases Int.lt_or_le cmdid.toInt 0 with neg | nonneg
  · rw [routeKey2RouteID_modid_of_neg neg]
    exact ⟨fun same => Or.inr same.symm, fun holds => (holds.resolve_left (Int.not_le.2 neg)).symm⟩
  · exact iff_of_true (routeKey2RouteID_modid nonneg) (Or.inl nonneg)

theorem routeID2RouteKey_inj {modid' cmdid' : BitVec 32} (nonneg : 0 ≤ cmdid.toInt) :
    routeID2RouteKey modid' cmdid' = routeID2RouteKey modid cmdid ↔
      modid' = modid ∧ cmdid' = cmdid := by
  refine ⟨fun same => ?_, fun ⟨modid_eq, cmdid_eq⟩ => by rw [modid_eq, cmdid_eq]⟩
  have cmdid_eq : cmdid' = cmdid := by
    rw [← @routeKey2RouteID_cmdid modid' cmdid', same, routeKey2RouteID_cmdid]
  subst cmdid_eq
  refine ⟨?_, rfl⟩
  rw [← @routeKey2RouteID_modid modid' _ nonneg, same, routeKey2RouteID_modid nonneg]

theorem routeID2RouteKey_stateful : routeID2RouteKey modid (-1) = BitVec.allOnes 64 := by
  have ones : (-1 : BitVec 32).signExtend 64 = BitVec.allOnes 64 := by decide
  rw [routeID2RouteKey, ones, BitVec.or_allOnes]

end Keys

/-! ## The limits -/

/-- The limit of the first call that satisfies a condition, or 0. -/
def firstLimit (holds : LimitCall → Bool) (calls : List LimitCall) : BitVec 32 :=
  ((calls.find? holds).map fun call => storedLimit call.limit).getD 0

/-- The call is for this route, where all stateful routes of a `modid` are the same. -/
def IsFor (modid cmdid : BitVec 32) (call : LimitCall) : Prop :=
  call.modid = modid ∧ (call.cmdid = cmdid ∨ call.cmdid.toInt < 1 ∧ cmdid.toInt < 1)

instance (modid cmdid : BitVec 32) (call : LimitCall) : Decidable (IsFor modid cmdid call) :=
  inferInstanceAs (Decidable (_ ∧ _))

/-- A call for a stateful route. -/
def Stateful (call : LimitCall) : Prop := 1 ≤ call.modid.toInt ∧ call.cmdid.toInt < 1

instance (call : LimitCall) : Decidable (Stateful call) := inferInstanceAs (Decidable (_ ∧ _))

/-- The call stores its limit at a key, if there is none. -/
def Stores (key : BitVec 64) (call : LimitCall) : Prop :=
  1 ≤ call.modid.toInt ∧ routeKey call.modid call.cmdid = key

instance (key : BitVec 64) (call : LimitCall) : Decidable (Stores key call) :=
  inferInstanceAs (Decidable (_ ∧ _))

theorem routeLimitMap_initConnNumLimit (mgr : CRouteMgr) (call : LimitCall) (key : BitVec 64) :
    (mgr.initConnNumLimit call).routeLimitMap key = (mgr.routeLimitMap key).or
      (if Stores key call then some (storedLimit call.limit) else none) := by
  unfold initConnNumLimit
  by_cases negative : call.modid.toInt < 1
  · have not_stored : ¬Stores key call := fun stores => absurd stores.1 (by omega)
    rw [if_pos negative, if_neg not_stored, Option.or_none]
  · rw [if_neg negative]
    dsimp only
    by_cases same : routeKey call.modid call.cmdid = key
    · have stores : Stores key call := ⟨by omega, same⟩
      rw [if_pos stores, same]
      cases found : mgr.routeLimitMap key with
      | none => exact Function.update_self _ _ _
      | some limit => exact found
    · have not_stored : ¬Stores key call := fun stores => same stores.2
      rw [if_neg not_stored, Option.or_none]
      cases mgr.routeLimitMap (routeKey call.modid call.cmdid) with
      | none => exact Function.update_of_ne (Ne.symm same) _ _
      | some limit => rfl

theorem routeLimitMap_foldl (calls : List LimitCall) (mgr : CRouteMgr) (key : BitVec 64) :
    (calls.foldl initConnNumLimit mgr).routeLimitMap key = (mgr.routeLimitMap key).or
      ((calls.find? fun call => Stores key call).map fun call => storedLimit call.limit) := by
  induction calls generalizing mgr with
  | nil => exact (Option.or_none).symm
  | cons call calls induction =>
      rw [List.foldl_cons, induction, routeLimitMap_initConnNumLimit, Option.or_assoc]
      by_cases stores : Stores key call
      · rw [if_pos stores, List.find?_cons, decide_eq_true stores]
        rfl
      · rw [if_neg stores, List.find?_cons, decide_eq_false stores]
        rfl

theorem getConnNumLimit_afterCalls (calls : List LimitCall) (positive : 1 ≤ modid.toInt)
    (cmdid : BitVec 32) :
    (afterCalls calls).getConnNumLimit modid cmdid =
      firstLimit (fun call => Stores (routeKey modid cmdid) call) calls := by
  rw [getConnNumLimit, if_neg (by omega), afterCalls, routeLimitMap_foldl]
  rfl

theorem storedCmdid_of_pos (positive : 1 ≤ cmdid.toInt) : storedCmdid cmdid = cmdid :=
  if_neg (by omega)

theorem storedCmdid_of_stateful (stateful : cmdid.toInt < 1) : storedCmdid cmdid = -1 :=
  if_pos stateful

theorem routeKey_eq (modid cmdid : BitVec 32) :
    routeKey modid cmdid = routeID2RouteKey modid (storedCmdid cmdid) :=
  rfl

theorem stores_iff_isFor (modid_pos : 1 ≤ modid.toInt) (cmdid_pos : 1 ≤ cmdid.toInt)
    (call : LimitCall) : Stores (routeKey modid cmdid) call ↔ IsFor modid cmdid call := by
  rw [Stores, IsFor, routeKey_eq, routeKey_eq, storedCmdid_of_pos cmdid_pos,
    routeID2RouteKey_inj (by omega)]
  rcases Int.lt_or_le call.cmdid.toInt 1 with stateful | positive
  · have not_same : (-1 : BitVec 32) ≠ cmdid := by
      rintro rfl
      exact absurd cmdid_pos (by decide)
    rw [storedCmdid_of_stateful stateful]
    refine iff_of_false (fun stores => not_same stores.2.2) fun isFor => ?_
    rcases isFor.2 with same | both
    · exact absurd cmdid_pos (same ▸ Int.not_le.2 stateful)
    · omega
  · rw [storedCmdid_of_pos positive]
    constructor
    · exact fun stores => ⟨stores.2.1, Or.inl stores.2.2⟩
    · rintro ⟨rfl, same | both⟩
      · exact ⟨modid_pos, rfl, same⟩
      · omega

theorem stores_iff_stateful (stateful : cmdid.toInt < 1) (call : LimitCall) :
    Stores (routeKey modid cmdid) call ↔ Stateful call := by
  rw [Stores, Stateful, routeKey_eq, routeKey_eq, storedCmdid_of_stateful stateful,
    routeID2RouteKey_stateful, ← @routeID2RouteKey_stateful call.modid]
  refine and_congr_right fun _ => ?_
  rcases Int.lt_or_le call.cmdid.toInt 1 with also | positive
  · exact iff_of_true (by rw [storedCmdid_of_stateful also]) also
  · rw [storedCmdid_of_pos positive, eq_comm, routeID2RouteKey_inj (by omega)]
    refine iff_of_false (fun same => ?_) (Int.not_lt.2 positive)
    rw [← same.2] at positive
    exact absurd positive (by decide)

/-- The limit of a route is the first one that was given for it if and only if the route is not
stateful, or its limit is the first one that was given for any stateful route.  The ids are got back
from a key if and only if the `cmdid` is not negative, or both halves of the key are its sign. -/
theorem getConnNumLimit_first_iff (calls : List LimitCall) {modid : BitVec 32}
    (positive : 1 ≤ modid.toInt) (cmdid : BitVec 32) :
    ((afterCalls calls).getConnNumLimit modid cmdid =
        firstLimit (fun call => IsFor modid cmdid call) calls ↔
      1 ≤ cmdid.toInt ∨ firstLimit (fun call => Stateful call) calls =
        firstLimit (fun call => IsFor modid cmdid call) calls) ∧
    ∀ modid cmdid : BitVec 32, routeKey2RouteID (routeID2RouteKey modid cmdid) = (modid, cmdid) ↔
      0 ≤ cmdid.toInt ∨ modid = -1 := by
  refine ⟨?_, fun modid cmdid => routeKey2RouteID_iff⟩
  rw [getConnNumLimit_afterCalls calls positive]
  rcases Int.lt_or_le cmdid.toInt 1 with stateful | cmdid_pos
  · simp only [stores_iff_stateful stateful]
    rw [or_iff_right (Int.not_le.2 stateful)]
  · simp only [stores_iff_isFor positive cmdid_pos, true_iff]
    exact Or.inl cmdid_pos

/-- The route has two limits, and there are those of another route and of a stateful one. -/
def fourLimits : List LimitCall := [⟨1, 0, 4⟩, ⟨1, 7, 5⟩, ⟨2, 7, 6⟩, ⟨1, 7, 9⟩]

theorem getConnNumLimit_first_five :
    (afterCalls fourLimits).getConnNumLimit 1 7 =
        firstLimit (fun call => IsFor 1 7 call) fourLimits ∧
      firstLimit (fun call => IsFor 1 7 call) fourLimits = 5 :=
  ⟨(getConnNumLimit_first_iff fourLimits (by decide) 7).1.2 (Or.inl (by decide)), by decide⟩

/-- The limit of the stateful routes of `modid` 1 is that of `modid` 2 too. -/
theorem getConnNumLimit_mixed :
    (afterCalls [⟨1, 0, 5⟩]).getConnNumLimit 2 0 = 5 ∧
    firstLimit (fun call => IsFor 2 0 call) [⟨1, 0, 5⟩] = 0 ∧
    routeKey2RouteID (routeID2RouteKey 2 (-1)) = (-1, -1) := by
  decide

end CRouteMgr

end Spp.AsyncFrame
