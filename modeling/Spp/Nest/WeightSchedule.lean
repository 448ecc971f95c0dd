import Spp.Lib.Segments
import Spp.Nest.SvrDisp

/-!
# Choice by weight, `CWeightSchedule`

The scheduler of `nest/comm/weight_schedule.cpp` lists items with weights.  A weight falls by a step
when the item gets a request and rises when it answers; `CDynamicCtrl::calc_step` finds the steps
from the traffic.  `get_next_item` draws a number below the sum of the weights and takes the item
whose segment has the number; at times it takes an item of least weight.
-/

namespace Spp

/-- `CDynamicCtrl` -/
structure CDynamicCtrl where
  reportTime : Nat
  reqCount : Nat
  rspCount : Nat
  costTotal : Nat

namespace CDynamicCtrl

/-- `real_wins`, with its bounds `MIN_WINDOWS` and `MAX_WINDOWS`. -/
def realWins (reqCount maxCapacity : Nat) : Nat :=
  let wins := 1 * reqCount / maxCapacity
  if wins < 1 then 1 else if wins > 20 then 20 else wins

/-- `calc_step` -/
def calcStep (ctrl : CDynamicCtrl) (timeNow count : Nat) : Nat :=
  let dfltDec := CommuServer.maxQuota / 1
  if ctrl.reportTime = 0 ∨ ctrl.rspCount = 0 then
    dfltDec
  else
    let avgCost := u32 (ctrl.costTotal / ctrl.rspCount : Nat)
    if avgCost = 0 ∨ timeNow < ctrl.reportTime then
      dfltDec
    else
      let maxCapacity := u32 (u64 (count * (timeNow - ctrl.reportTime) : Nat) / avgCost : Nat)
      if maxCapacity = 0 then
        dfltDec
      else
        CommuServer.maxQuota / realWins ctrl.reqCount maxCapacity

theorem calcStep_le (ctrl : CDynamicCtrl) (timeNow count : Nat) :
    ctrl.calcStep timeNow count ≤ CommuServer.maxQuota := by
  have dflt : CommuServer.maxQuota / 1 ≤ CommuServer.maxQuota := Nat.div_le_self ..
  unfold calcStep
  dsimp only
  split
  · exact dflt
  · split
    · exact dflt
    · split
      · exact dflt
      · exact Nat.div_le_self ..

end CDynamicCtrl

namespace SvrDisp

variable {χ σ : Type} [DecidableEq χ] [DecidableEq σ]

/-- `add_item` -/
def addItem (disp : SvrDisp χ σ) (ptr : σ) (item : χ) : Option (SvrDisp χ σ) := do
  let object ← disp.channel item
  let disp := disp.setChannel item
    { object with weight := CommuServer.maxQuota, maxWeight := CommuServer.maxQuota }
  return disp.setServer ptr ((disp.server ptr).addItem item)

/-- The calls of the scheduler. -/
inductive SchedCall (χ : Type) where
  | addItem (item : χ)
  | delItem (item : χ)
  | incWeight (item : χ)
  | decWeight (item : χ)
  /-- `set_step_params` with what `calc_step` returns. -/
  | setStepParams (ctrl : CDynamicCtrl) (timeNow count : Nat)
  | srand (seed : Nat)
  | getNextItem

/-- The scheduler after a call. -/
def schedule (disp : SvrDisp χ σ) (ptr : σ) : SchedCall χ → Option (SvrDisp χ σ)
  | .addItem item => disp.addItem ptr item
  | .delItem item =>
      some (disp.setServer ptr
        { disp.server ptr with itemList := (disp.server ptr).itemList.erase item })
  | .incWeight item => do
      let object ← disp.channel item
      return disp.setChannel item (SvrDisp.incWeight (disp.server ptr).incStep object)
  | .decWeight item => do
      let object ← disp.channel item
      return disp.setChannel item (SvrDisp.decWeight (disp.server ptr).decStep object)
  | .setStepParams ctrl timeNow count =>
      some (disp.setServer ptr
        ((disp.server ptr).setStepParams (some (ctrl.calcStep timeNow count))))
  | .srand seed => some (disp.setServer ptr { disp.server ptr with randSeed := seed })
  | .getNextItem => do
      let next ← disp.getNextItem ptr
      return next.2

/-- A run of a scheduler that begins as it is made. -/
def Schedules (ptr : σ) (disp : SvrDisp χ σ) : Prop :=
  ∃ start : SvrDisp χ σ, start.server ptr = .init ∧
    Relation.ReflTransGen (fun before after => ∃ call, schedule before ptr call = some after)
      start disp

/-- The weight of a channel. -/
def weightOf (disp : SvrDisp χ σ) (item : χ) : Nat :=
  ((disp.channel item).map ChannelObject.weight).getD 0

/-- The weights of a server's channels. -/
def weights (disp : SvrDisp χ σ) (ptr : σ) : List Nat :=
  (disp.server ptr).itemList.map disp.weightOf

/-! ## The weights -/

/-- The weight is in its range. -/
structure InQuota (object : ChannelObject σ) : Prop where
  weight_pos : 1 ≤ object.weight
  weight_le : object.weight ≤ 10000
  maxWeight_eq : object.maxWeight = 10000

/-- The steps have their bounds, and so do the weights of the items. -/
structure Scheduled (disp : SvrDisp χ σ) (ptr : σ) : Prop where
  incStep_le : (disp.server ptr).incStep ≤ 10500
  decStep_le : (disp.server ptr).decStep ≤ 10000
  listed : ∀ item ∈ (disp.server ptr).itemList, ∃ object, disp.channel item = some object ∧
    InQuota object

section Weights

variable {disp after : SvrDisp χ σ} {ptr : σ} {item : χ} {object : ChannelObject σ} {step : Nat}

omit [DecidableEq χ] [DecidableEq σ] in
theorem InQuota.incWeight (quota : InQuota object) (step_le : step ≤ 10500) :
    InQuota (SvrDisp.incWeight step object) := by
  obtain ⟨weight_pos, weight_le, max_eq⟩ := quota
  have sum_eq : u32 (object.weight + step) = object.weight + step := by
    unfold u32
    omega
  rw [SvrDisp.incWeight, sum_eq]
  split
  · exact ⟨by dsimp only; omega, by dsimp only; omega, max_eq⟩
  · exact ⟨by dsimp only; omega, by dsimp only; omega, max_eq⟩

omit [DecidableEq χ] [DecidableEq σ] in
theorem InQuota.decWeight (quota : InQuota object) (step_le : step ≤ 10000) :
    InQuota (SvrDisp.decWeight step object) := by
  obtain ⟨weight_pos, weight_le, max_eq⟩ := quota
  have sum_eq : u32 (step + 1) = step + 1 := by
    unfold u32
    omega
  rw [SvrDisp.decWeight, sum_eq]
  split
  · exact ⟨le_rfl, show 1 ≤ 10000 by decide, max_eq⟩
  · have difference_eq : u32 (object.weight - step) = object.weight - step := by
      unfold u32
      omega
    rw [difference_eq]
    exact ⟨by dsimp only; omega, by dsimp only; omega, max_eq⟩

omit [DecidableEq σ] in
theorem Scheduled.setChannel (scheduled : disp.Scheduled ptr)
    (quota : item ∈ (disp.server ptr).itemList → InQuota object) :
    (disp.setChannel item object).Scheduled ptr := by
  refine ⟨scheduled.incStep_le, scheduled.decStep_le, fun other member => ?_⟩
  by_cases same : other = item
  · subst same
    exact ⟨object, Function.update_self .., quota member⟩
  · obtain ⟨found, is_found, other_quota⟩ := scheduled.listed other member
    exact ⟨found, (Function.update_of_ne same _ _).trans is_found, other_quota⟩

omit [DecidableEq χ] in
theorem Scheduled.setServer (scheduled : disp.Scheduled ptr) {server : CommuServer χ}
    (incStep_le : server.incStep ≤ 10500) (decStep_le : server.decStep ≤ 10000)
    (listed : ∀ item ∈ server.itemList, item ∈ (disp.server ptr).itemList ∨
      ∃ object, disp.channel item = some object ∧ InQuota object) :
    (disp.setServer ptr server).Scheduled ptr := by
  have server_eq : (disp.setServer ptr server).server ptr = server := Function.update_self ..
  refine ⟨by rwa [server_eq], by rwa [server_eq], fun item member => ?_⟩
  rw [server_eq] at member
  rcases listed item member with before | found
  · exact scheduled.listed item before
  · exact found

theorem Scheduled.addItem (scheduled : disp.Scheduled ptr)
    (adds : disp.addItem ptr item = some after) : after.Scheduled ptr := by
  obtain ⟨object, -, same⟩ := Option.bind_eq_some_iff.mp adds
  cases same
  have quota : InQuota { object with
      weight := CommuServer.maxQuota, maxWeight := CommuServer.maxQuota } :=
    ⟨show 1 ≤ CommuServer.maxQuota by decide, le_rfl, rfl⟩
  have weighted := scheduled.setChannel fun _ : item ∈ (disp.server ptr).itemList => quota
  refine weighted.setServer ?_ ?_ fun other member => ?_
  · rw [CommuServer.addItem]
    split <;> exact weighted.incStep_le
  · rw [CommuServer.addItem]
    split <;> exact weighted.decStep_le
  · rw [CommuServer.addItem] at member
    split at member
    · exact Or.inl member
    · rcases List.mem_append.mp member with before | new
      · exact Or.inl before
      · cases List.mem_singleton.mp new
        exact Or.inr ⟨_, Function.update_self .., quota⟩

/-- Every call keeps the weights of the listed items between the bounds. -/
theorem Scheduled.schedule (scheduled : disp.Scheduled ptr) {call : SchedCall χ}
    (performs : disp.schedule ptr call = some after) : after.Scheduled ptr := by
  cases call with
  | addItem item => exact scheduled.addItem performs
  | delItem item =>
      cases performs
      exact scheduled.setServer scheduled.incStep_le scheduled.decStep_le fun other member =>
        Or.inl (List.mem_of_mem_erase member)
  | incWeight item =>
      obtain ⟨object, found, same⟩ := Option.bind_eq_some_iff.mp performs
      cases same
      refine scheduled.setChannel fun member => ?_
      obtain ⟨other, is_found, quota⟩ := scheduled.listed item member
      cases Option.some.inj (is_found.symm.trans found)
      exact quota.incWeight scheduled.incStep_le
  | decWeight item =>
      obtain ⟨object, found, same⟩ := Option.bind_eq_some_iff.mp performs
      cases same
      refine scheduled.setChannel fun member => ?_
      obtain ⟨other, is_found, quota⟩ := scheduled.listed item member
      cases Option.some.inj (is_found.symm.trans found)
      exact quota.decWeight scheduled.decStep_le
  | setStepParams ctrl timeNow count =>
      cases performs
      have step_le := ctrl.calcStep_le timeNow count
      rw [CommuServer.maxQuota] at step_le
      generalize ctrl.calcStep timeNow count = dec at step_le
      rw [CommuServer.setStepParams]
      split
      · refine scheduled.setServer ?_ step_le fun item member => Or.inl member
        dsimp only
        rw [u32, Int.emod_eq_of_lt (by omega) (by omega)]
        omega
      · exact scheduled.setServer scheduled.incStep_le scheduled.decStep_le fun item member =>
          Or.inl member
  | srand seed =>
      cases performs
      exact scheduled.setServer scheduled.incStep_le scheduled.decStep_le fun item member =>
        Or.inl member
  | getNextItem =>
      obtain ⟨next, gets, same⟩ := Option.bind_eq_some_iff.mp performs
      obtain ⟨found, -, next_eq⟩ := Option.bind_eq_some_iff.mp gets
      cases same
      cases next_eq
      exact scheduled.setServer scheduled.incStep_le scheduled.decStep_le fun item member =>
        Or.inl member

theorem Schedules.scheduled (schedules : Schedules ptr disp) : disp.Scheduled ptr := by
  obtain ⟨start, fresh, run⟩ := schedules
  induction run with
  | refl =>
      refine ⟨?_, ?_, ?_⟩
      · rw [fresh]
        exact show 1000 ≤ 10500 by decide
      · rw [fresh]
        exact show 960 ≤ 10000 by decide
      · rw [fresh]
        exact fun item member => absurd member List.not_mem_nil
  | tail _ step induction =>
      obtain ⟨call, performs⟩ := step
      exact induction.schedule performs

end Weights

/-! ## The choice -/

section Choice

variable {disp : SvrDisp χ σ} {items : List χ}

omit [DecidableEq χ] [DecidableEq σ] in
theorem weightOf_eq {item : χ} {object : ChannelObject σ}
    (found : disp.channel item = some object) :
    disp.weightOf item = object.weight := by
  rw [weightOf, found]
  rfl

omit [DecidableEq χ] [DecidableEq σ] in
theorem totalQuota_eq_sum (found : ∀ item ∈ items, ∃ object, disp.channel item = some object)
    {total : Nat} (small : total + (items.map disp.weightOf).sum < 4294967296) :
    disp.totalQuota items total = some (total + (items.map disp.weightOf).sum) := by
  induction items generalizing total with
  | nil => rfl
  | cons item items induction =>
      obtain ⟨object, is_found⟩ := found item List.mem_cons_self
      rw [List.map_cons, List.sum_cons, weightOf_eq is_found] at small ⊢
      have sum_eq : u32 (total + object.weight) = total + object.weight := by
        unfold u32
        omega
      rw [totalQuota, is_found, Option.bind_eq_bind, Option.bind_some, sum_eq,
        induction (fun other member => found other (List.mem_cons_of_mem _ member))
          (show total + object.weight + (items.map disp.weightOf).sum < 4294967296 by omega),
        Nat.add_assoc]

omit [DecidableEq χ] [DecidableEq σ] in
theorem drawLoop_inSegment (found : ∀ item ∈ items, ∃ object, disp.channel item = some object)
    (last : Option χ) {rand : Nat} (less : rand < (items.map disp.weightOf).sum) :
    ∃ index item, items[index]? = some item ∧ disp.drawLoop items last rand = some (some item) ∧
      InSegment (items.map disp.weightOf) rand index := by
  induction items generalizing last rand with
  | nil => exact absurd less (Nat.not_lt_zero _)
  | cons item items induction =>
      obtain ⟨object, is_found⟩ := found item List.mem_cons_self
      rw [List.map_cons, List.sum_cons, weightOf_eq is_found] at less
      rw [List.map_cons, weightOf_eq is_found, drawLoop, is_found, Option.bind_eq_bind,
        Option.bind_some]
      by_cases here : rand < object.weight
      · exact ⟨0, item, rfl, if_pos here, InSegment.head _ here⟩
      · obtain ⟨index, other, at_index, draws, inside⟩ := induction
          (fun other member => found other (List.mem_cons_of_mem _ member)) (some item)
          (show rand - object.weight < (items.map disp.weightOf).sum by omega)
        exact ⟨index + 1, other, at_index, (if_neg here).trans draws,
          inside.tail (Nat.le_of_not_lt here)⟩

omit [DecidableEq χ] [DecidableEq σ] in
theorem detectLoop_least (found : ∀ item ∈ items, ∃ object, disp.channel item = some object)
    (least : χ) (seed : Nat) :
    ∃ item next, disp.detectLoop items (some (least, disp.weightOf least)) seed =
        some (some item, next) ∧ (item = least ∨ item ∈ items) ∧
      disp.weightOf item ≤ disp.weightOf least ∧
      ∀ other ∈ items, disp.weightOf item ≤ disp.weightOf other := by
  induction items generalizing least seed with
  | nil => exact ⟨least, seed, rfl, Or.inl rfl, le_rfl,
    fun _ member => absurd member List.not_mem_nil⟩
  | cons first items induction =>
      obtain ⟨object, is_found⟩ := found first List.mem_cons_self
      have induction := induction fun other member => found other (List.mem_cons_of_mem _ member)
      have weight_eq := weightOf_eq is_found
      have takes : ∀ candidate seed, disp.weightOf candidate ≤ disp.weightOf least →
          disp.weightOf candidate ≤ disp.weightOf first → (candidate = least ∨ candidate = first) →
          ∃ item next, disp.detectLoop items (some (candidate, disp.weightOf candidate)) seed =
              some (some item, next) ∧ (item = least ∨ item ∈ first :: items) ∧
            disp.weightOf item ≤ disp.weightOf least ∧
            ∀ other ∈ first :: items, disp.weightOf item ≤ disp.weightOf other := by
        intro candidate seed le_least le_first is_one
        obtain ⟨item, next, detects, member, le, all⟩ := induction candidate seed
        refine ⟨item, next, detects, ?_, le.trans le_least, ?_⟩
        · rcases member with rfl | member
          · refine is_one.imp_right fun same => ?_
            rw [same]
            exact List.mem_cons_self
          · exact Or.inr (List.mem_cons_of_mem _ member)
        · exact List.forall_mem_cons.mpr ⟨le.trans le_first, all⟩
      rw [detectLoop, is_found, Option.bind_eq_bind, Option.bind_some, ← weight_eq]
      dsimp only
      by_cases less : disp.weightOf first < disp.weightOf least
      · rw [if_pos less]
        exact takes first seed less.le le_rfl (Or.inr rfl)
      · rw [if_neg less]
        by_cases same : disp.weightOf first = disp.weightOf least
        · rw [if_pos same]
          split
          · exact takes first _ same.le le_rfl (Or.inr rfl)
          · exact takes least _ le_rfl same.ge (Or.inl rfl)
        · rw [if_neg same]
          exact takes least seed le_rfl (Nat.le_of_not_lt less) (Or.inl rfl)

omit [DecidableEq χ] [DecidableEq σ] in
theorem detectLoop_weights (found : ∀ item ∈ items, ∃ object, disp.channel item = some object)
    (some_item : items ≠ []) (seed : Nat) :
    ∃ item next, disp.detectLoop items none seed = some (some item, next) ∧ item ∈ items ∧
      ∀ other ∈ items, disp.weightOf item ≤ disp.weightOf other := by
  cases items with
  | nil => exact absurd rfl some_item
  | cons first items =>
      obtain ⟨object, is_found⟩ := found first List.mem_cons_self
      obtain ⟨item, next, detects, member, le, all⟩ := detectLoop_least
        (fun other member => found other (List.mem_cons_of_mem first member)) first seed
      refine ⟨item, next, ?_, List.mem_cons.mpr member, List.forall_mem_cons.mpr ⟨le, all⟩⟩
      rw [detectLoop, is_found, Option.bind_eq_bind, Option.bind_some, ← weightOf_eq is_found]
      exact detects

/-- The weights of the listed items are between the bounds.  `get_next_item` returns a listed item:
one of least weight at every ten thousandth call, and otherwise the only one whose segment has the
number that is drawn. -/
theorem schedules_choice {ptr : σ} (schedules : Schedules ptr disp) :
    (∀ item ∈ (disp.server ptr).itemList,
      1 ≤ disp.weightOf item ∧ disp.weightOf item ≤ 10000) ∧
    ((disp.server ptr).itemList ≠ [] → (disp.server ptr).itemList.length ≤ 429496 →
      ∃ item after, disp.getNextItem ptr = some (some item, after) ∧
        item ∈ (disp.server ptr).itemList ∧
        if u64 ((disp.server ptr).totalTimes + 1) % 10000 = 9999 then
          ∀ other ∈ (disp.server ptr).itemList, disp.weightOf item ≤ disp.weightOf other
        else
          ∃ index, (disp.server ptr).itemList[index]? = some item ∧
            ∀ other, InSegment (disp.weights ptr)
              ((CommuServer.random (disp.server ptr).randSeed).1 % (disp.weights ptr).sum) other ↔
                other = index) := by
  have scheduled := schedules.scheduled
  have found : ∀ item ∈ (disp.server ptr).itemList, ∃ object, disp.channel item = some object :=
    fun item member => (scheduled.listed item member).imp fun _ listed => listed.1
  have bounds : ∀ item ∈ (disp.server ptr).itemList,
      1 ≤ disp.weightOf item ∧ disp.weightOf item ≤ 10000 := by
    intro item member
    obtain ⟨object, is_found, quota⟩ := scheduled.listed item member
    rw [weightOf_eq is_found]
    exact ⟨quota.weight_pos, quota.weight_le⟩
  refine ⟨bounds, fun some_item few => ?_⟩
  rw [getNextItem, nextItem]
  by_cases detects : u64 ((disp.server ptr).totalTimes + 1) % 10000 = 9999
  · obtain ⟨item, next, is_found, member, least⟩ :=
      detectLoop_weights found some_item (disp.server ptr).randSeed
    simp only [wakeupFrq, detects, is_found, if_true]
    exact ⟨item, _, rfl, member, least⟩
  · have sum_le : (disp.weights ptr).sum ≤ (disp.weights ptr).length * 10000 := by
      refine List.sum_le_card_nsmul _ _ fun weight member => ?_
      obtain ⟨item, listed, rfl⟩ := List.mem_map.mp member
      exact (bounds item listed).2
    have length_eq : (disp.weights ptr).length = (disp.server ptr).itemList.length :=
      List.length_map ..
    obtain ⟨first, first_listed⟩ := List.exists_mem_of_ne_nil _ some_item
    have positive : 0 < (disp.weights ptr).sum := by
      have le : disp.weightOf first ≤ (disp.weights ptr).sum :=
        List.single_le_sum (fun _ _ => Nat.zero_le _) _ (List.mem_map_of_mem first_listed)
      have := (bounds first first_listed).1
      omega
    have total_eq : disp.totalQuota (disp.server ptr).itemList 0 = some (disp.weights ptr).sum := by
      have total_eq := totalQuota_eq_sum found
          (show 0 + (disp.weights ptr).sum < 4294967296 by omega)
      rwa [Nat.zero_add] at total_eq
    obtain ⟨index, item, at_index, draws, inside⟩ := drawLoop_inSegment found
      (disp.server ptr).itemList.getLast?
      (Nat.mod_lt (CommuServer.random (disp.server ptr).randSeed).1 positive)
    simp only [wakeupFrq, detects, if_false, total_eq, Option.bind_eq_bind, Option.bind_some,
      gt_iff_lt, positive, if_true]
    rw [show (disp.weights ptr).sum = ((disp.server ptr).itemList.map disp.weightOf).sum from rfl,
      draws]
    refine ⟨item, _, rfl, List.mem_of_getElem? at_index, index, at_index, fun other => ?_⟩
    exact ⟨fun other_inside => other_inside.unique inside, fun same => same ▸ inside⟩

end Choice

/-- No item is listed, and there are channels. -/
def unlisted : SvrDisp Nat Nat := { start with channel := fun _ => some ⟨0, none, 0, 0⟩ }

theorem Schedules.call {ptr : σ} {disp : SvrDisp χ σ} (schedules : Schedules ptr disp)
    (call : SchedCall χ) (returns : (disp.schedule ptr call).isSome) :
    Schedules ptr ((disp.schedule ptr call).get returns) := by
  obtain ⟨start, fresh, run⟩ := schedules
  exact ⟨start, fresh, run.tail ⟨call, (Option.some_get returns).symm⟩⟩

/-- Two items are added, and one gets a request. -/
theorem schedules_choice_two :
    ∃ disp : SvrDisp Nat Nat, Schedules 0 disp ∧ disp.weights 0 = [9040, 10000] ∧
      ∃ item after, disp.getNextItem 0 = some (some item, after) ∧ item ∈ [1, 2] := by
  have fresh : Schedules 0 unlisted := ⟨unlisted, rfl, Relation.ReflTransGen.refl⟩
  have first := fresh.call (.addItem 1) (by decide)
  have second := first.call (.addItem 2) (by decide)
  have third := second.call (.decWeight 1) (by decide)
  obtain ⟨item, after, gets, member, -⟩ :=
    (schedules_choice third).2 (by decide) (by decide)
  exact ⟨_, third, by decide, item, after, gets, member⟩

end SvrDisp

end Spp
