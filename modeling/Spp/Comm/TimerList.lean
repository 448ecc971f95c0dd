import Spp.Lib.MachineInt
import Spp.Lib.Rings

/-!
# Timer lists

A `CTimerUnit` has one `CTimerList` for each timeout.  A `CTimerObject` that is attached to a list
gets the time of its expiry and moves to the end of the list; `CheckExpired` looks at each list from
its front on, up to the first object that has not expired.
-/

namespace Spp

/-- A `CTimerUnit` with its lists and the objects.  The list `none` is `pending`. -/
structure CTimerUnit (κ ω : Type) where
  /-- `objlist` of `tlist` of each list, and of each object. -/
  links : Links (Option κ ⊕ ω)
  timeout : κ → Int
  next : List κ
  timeoutInf : Int
  objexp : ω → Int

namespace CTimerUnit

variable {κ ω : Type} [DecidableEq κ] [DecidableEq ω]

/-- A new unit; every object is new as well, and `InitList` has made it a ring of its own. -/
def init (timeout : κ → Int) (objexp : ω → Int) : CTimerUnit κ ω where
  links := .alone
  timeout := timeout
  next := []
  timeoutInf := 0
  objexp := objexp

/-- `ListEmpty` -/
def listEmpty (unit : CTimerUnit κ ω) (list : Option κ) : Bool :=
  unit.links.next (.inl list) = .inl list

/-- `NextOwner` -/
def nextOwner (unit : CTimerUnit κ ω) (list : Option κ) : Option ω :=
  match unit.links.next (.inl list) with
  | .inl _ => none
  | .inr object => some object

/-- `ListDel` -/
def listDel (unit : CTimerUnit κ ω) (object : ω) : CTimerUnit κ ω :=
  { unit with links := unit.links.delInit (.inr object) }

/-- `DisableTimer` -/
def disableTimer (unit : CTimerUnit κ ω) (object : ω) : CTimerUnit κ ω :=
  unit.listDel object

/-- `AttachTimer` -/
def attachTimer (unit : CTimerUnit κ ω) (clock : Int) (object : ω) (list : κ) : CTimerUnit κ ω :=
  { unit with
    links := unit.links.moveTail (.inr object) (.inl (some list))
    objexp :=
      if unit.timeout list > 0 then
        Function.update unit.objexp object (clock + unit.timeout list)
      else
        unit.objexp }

/-- The loops of `CTimerList::CheckExpired` and `CheckPending`: the objects at the front of a list
are taken out and notified, in this order, up to one whose `objexp` is to stay. -/
def notifyLoop (list : Option κ) (stays : Int → Bool) :
    (rounds : Nat) → CTimerUnit κ ω → Option (List ω × CTimerUnit κ ω)
  | 0, _ => none
  | rounds + 1, unit =>
      if unit.listEmpty list then
        some ([], unit)
      else do
        let object ← unit.nextOwner list
        if stays (unit.objexp object) then
          return ([], unit)
        else
          let rest ← notifyLoop list stays rounds (unit.listDel object)
          return (object :: rest.1, rest.2)

/-- The time of a check: zero stands for the time of the clock. -/
def checkTime (clock now : Int) : Int :=
  if now = 0 then clock else now

/-- `CTimerList::CheckExpired`.  The result `n` is the number of the objects. -/
def checkExpiredList (unit : CTimerUnit κ ω) (rounds : Nat) (clock now : Int) (list : κ) :
    Option (List ω × CTimerUnit κ ω) :=
  notifyLoop (some list) (fun objexp => objexp > checkTime clock now) rounds unit

/-- `CheckPending` -/
def checkPending (unit : CTimerUnit κ ω) (rounds : Nat) : Option (List ω × CTimerUnit κ ω) :=
  notifyLoop none (fun _ => false) rounds unit

/-- The loop of `CheckExpired` over the lists. -/
def checkLists (rounds : Nat) (clock now : Int) :
    (lists : List κ) → CTimerUnit κ ω → Option (List ω × CTimerUnit κ ω)
  | [], unit => some ([], unit)
  | list :: lists, unit => do
      let first ← unit.checkExpiredList rounds clock now list
      let rest ← checkLists rounds clock now lists first.2
      return (first.1 ++ rest.1, rest.2)

/-- `CheckExpired` -/
def checkExpired (unit : CTimerUnit κ ω) (rounds : Nat) (clock now : Int) :
    Option (List ω × CTimerUnit κ ω) := do
  let pending ← unit.checkPending rounds
  let lists ← checkLists rounds clock (checkTime clock now) pending.2.next pending.2
  return (pending.1 ++ lists.1, lists.2)

/-- `GetTimerList`, with the list that `new` gives. -/
def getTimerList (unit : CTimerUnit κ ω) (msec : Int) (fresh : κ) : κ × CTimerUnit κ ω :=
  match unit.next.find? fun list => unit.timeout list = msec with
  | some list => (list, unit)
  | none =>
      (fresh, { unit with
        links := unit.links.init (.inl (some fresh))
        timeout := Function.update unit.timeout fresh msec
        next := fresh :: unit.next
        timeoutInf :=
          if msec < unit.timeoutInf ∨ unit.timeoutInf = 0 then msec else unit.timeoutInf })

/-- The loop of `ExpireMicroSeconds`: the least `objexp` at the front of a list, if it is less
than `exp`. -/
def expLoop (unit : CTimerUnit κ ω) : (lists : List κ) → (exp : Int) → Option Int
  | [], exp => some exp
  | list :: lists, exp =>
      if unit.listEmpty (some list) then
        unit.expLoop lists exp
      else do
        let object ← unit.nextOwner (some list)
        unit.expLoop lists (if unit.objexp object < exp then unit.objexp object else exp)

/-- `ExpireMicroSeconds` -/
def expireMicroSeconds (unit : CTimerUnit κ ω) (clock msec : Int) : Option Int := do
  let exp ← unit.expLoop unit.next (clock + msec)
  return if exp - clock ≤ 0 then 0 else i32 (exp - clock)

/-! ## Lists of objects -/

variable {rounds more : Nat} {result : List ω × CTimerUnit κ ω} {clock now : Int} {chain : List κ}

section Lists

variable {unit : CTimerUnit κ ω} {lists : Option κ → List ω} {list : Option κ}

theorem listEmpty_iff (rings : unit.links.Rings lists) :
    unit.listEmpty list = true ↔ lists list = [] := by
  rw [listEmpty, decide_eq_true_iff]
  cases list_eq : lists list with
  | nil => exact iff_of_true (rings.next_nil list_eq) rfl
  | cons object rest =>
      rw [rings.next_cons list_eq]
      exact iff_of_false Sum.inr_ne_inl (List.cons_ne_nil object rest)

omit [DecidableEq κ] [DecidableEq ω] in
theorem nextOwner_eq (rings : unit.links.Rings lists) {object : ω} {rest : List ω}
    (list_eq : lists list = object :: rest) : unit.nextOwner list = some object := by
  rw [nextOwner, rings.next_cons list_eq]

/-- The loop notifies the objects that are not to stay, if these are at the front. -/
theorem notifyLoop_eq (stays : Int → Bool) (rings : unit.links.Rings lists)
    (ordered : (lists list).Pairwise fun first second =>
      stays (unit.objexp first) = true → stays (unit.objexp second) = true) :
    ∃ links, (∀ rounds > (lists list).length, notifyLoop list stays rounds unit =
        some ((lists list).filter fun object => !stays (unit.objexp object),
          { unit with links := links })) ∧
      links.Rings (Function.update lists list
        ((lists list).filter fun object => stays (unit.objexp object))) := by
  generalize content_eq : lists list = content at ordered
  induction content generalizing unit lists with
  | nil =>
      refine ⟨unit.links, fun rounds enough => ?_, ?_⟩
      · obtain ⟨rounds, rfl⟩ := Nat.exists_eq_succ_of_ne_zero (Nat.ne_of_gt enough)
        rw [notifyLoop, if_pos ((listEmpty_iff rings).2 content_eq)]
        rfl
      · rw [List.filter_nil, ← content_eq, Function.update_eq_self]
        exact rings
  | cons object rest induction =>
      obtain ⟨first_le, ordered⟩ := List.pairwise_cons.1 ordered
      have loops (rounds : Nat) : notifyLoop list stays (rounds + 1) unit =
          if stays (unit.objexp object) then
            some ([], unit)
          else do
            let rest ← notifyLoop list stays rounds (unit.listDel object)
            return (object :: rest.1, rest.2) := by
        rw [notifyLoop, if_neg fun empty => by
          rw [(listEmpty_iff rings).1 empty] at content_eq
          cases content_eq]
        simp only [nextOwner_eq rings content_eq, Option.bind_eq_bind, Option.bind_some]
        rfl
      cases stays_eq : stays (unit.objexp object) with
      | true =>
          have all_stay : ∀ other ∈ object :: rest, stays (unit.objexp other) = true :=
            List.forall_mem_cons.2 ⟨stays_eq, fun other mem => first_le other mem stays_eq⟩
          refine ⟨unit.links, fun rounds enough => ?_, ?_⟩
          · obtain ⟨rounds, rfl⟩ := Nat.exists_eq_add_of_lt enough
            rw [loops, if_pos stays_eq, List.filter_eq_nil_iff.2]
            intro other mem
            rw [all_stay other mem]
            decide
          · rw [List.filter_eq_self.2 all_stay, ← content_eq, Function.update_eq_self]
            exact rings
      | false =>
          have del_eq : (lists list).erase object = rest := by
            rw [content_eq, List.erase_cons_head]
          obtain ⟨links, rest_eq, after_rings⟩ :=
            @induction (unit.listDel object) (fun head => (lists head).erase object)
              (rings.delInit object) del_eq ordered
          refine ⟨links, fun rounds enough => ?_, ?_⟩
          · obtain ⟨rounds, rfl⟩ := Nat.exists_eq_succ_of_ne_zero (Nat.ne_zero_of_lt enough)
            rw [loops, if_neg (by rw [stays_eq]; decide),
              rest_eq rounds (Nat.lt_of_succ_lt_succ enough),
              List.filter_cons_of_pos (by rw [stays_eq]; rfl)]
            rfl
          · rw [List.filter_cons_of_neg (by rw [stays_eq]; decide)]
            convert after_rings using 1
            funext head
            rw [Function.update_apply, Function.update_apply]
            split
            · rfl
            · rename_i other
              refine (List.erase_of_not_mem fun mem => other ?_).symm
              exact rings.unique mem (content_eq ▸ List.mem_cons_self)

theorem notifyLoop_mono {stays : Int → Bool} (le : rounds ≤ more)
    (loops : notifyLoop list stays rounds unit = some result) :
    notifyLoop list stays more unit = some result := by
  induction rounds generalizing more unit result with
  | zero => cases loops
  | succ rounds induction =>
      obtain ⟨more, rfl⟩ := Nat.exists_eq_add_of_le' (Nat.le_trans (Nat.le_add_left 1 rounds) le)
      rw [notifyLoop] at loops ⊢
      split at loops
      · rw [if_pos ‹_›]
        exact loops
      · rw [if_neg ‹_›]
        obtain ⟨object, owner, loops⟩ := Option.bind_eq_some_iff.1 loops
        rw [owner]
        simp only [Option.bind_eq_bind, Option.bind_some]
        split at loops
        · rw [if_pos ‹_›]
          exact loops
        · rw [if_neg ‹_›]
          obtain ⟨rest, rest_eq, same⟩ := Option.bind_eq_some_iff.1 loops
          rw [induction (Nat.le_of_succ_le_succ le) rest_eq]
          exact same

theorem checkLists_mono (le : rounds ≤ more)
    (loops : checkLists rounds clock now chain unit = some result) :
    checkLists more clock now chain unit = some result := by
  induction chain generalizing unit result with
  | nil => exact loops
  | cons list chain induction =>
      obtain ⟨first, first_eq, loops⟩ := Option.bind_eq_some_iff.1 loops
      obtain ⟨rest, rest_eq, same⟩ := Option.bind_eq_some_iff.1 loops
      rw [checkLists, checkExpiredList, notifyLoop_mono le first_eq]
      simp only [Option.bind_eq_bind, Option.bind_some, induction rest_eq]
      exact same

theorem checkExpired_mono (le : rounds ≤ more)
    (checks : unit.checkExpired rounds clock now = some result) :
    unit.checkExpired more clock now = some result := by
  obtain ⟨pending, pending_eq, checks⟩ := Option.bind_eq_some_iff.1 checks
  obtain ⟨fired, fired_eq, same⟩ := Option.bind_eq_some_iff.1 checks
  rw [checkExpired, checkPending, notifyLoop_mono le pending_eq]
  simp only [Option.bind_eq_bind, Option.bind_some, checkLists_mono le fired_eq]
  exact same

theorem checkTime_checkTime (clock now : Int) :
    checkTime clock (checkTime clock now) = checkTime clock now := by
  unfold checkTime
  split
  · split <;> simp_all
  · rfl

theorem checkLists_eq (clock now : Int) (nodup : chain.Nodup) (rings : unit.links.Rings lists)
    (sorted : ∀ list, (lists list).Pairwise fun first second =>
      unit.objexp first ≤ unit.objexp second) :
    ∃ links, (∀ rounds, (∀ list ∈ chain, (lists (some list)).length < rounds) →
        checkLists rounds clock now chain unit =
          some (chain.flatMap fun list => (lists (some list)).filter fun object =>
            !decide (unit.objexp object > checkTime clock now), { unit with links := links })) ∧
      links.Rings fun list => if list ∈ chain.map some then
        (lists list).filter fun object => decide (unit.objexp object > checkTime clock now)
        else lists list := by
  induction chain generalizing unit lists with
  | nil => exact ⟨unit.links, fun _ _ => rfl, rings⟩
  | cons list chain induction =>
      obtain ⟨fresh, nodup⟩ := List.nodup_cons.1 nodup
      obtain ⟨between, first_eq, between_rings⟩ := notifyLoop_eq
        (fun objexp => decide (objexp > checkTime clock now)) rings
        ((sorted (some list)).imp fun le stays => by
          rw [decide_eq_true_iff] at stays ⊢
          exact lt_of_lt_of_le stays le)
      let remaining := Function.update lists (some list) ((lists (some list)).filter fun object =>
        decide (unit.objexp object > checkTime clock now))
      have same_list : ∀ other ∈ chain, remaining (some other) = lists (some other) := by
        intro other mem
        refine Function.update_of_ne (fun same => fresh ?_) ..
        rwa [← Option.some.inj same]
      have sublist : ∀ other, (remaining other).Sublist (lists other) := by
        intro other
        unfold remaining
        rw [Function.update_apply]
        split
        · rename_i same
          rw [same]
          exact List.filter_sublist
        · exact List.Sublist.refl _
      obtain ⟨links, rest_eq, left_rings⟩ :=
        @induction { unit with links := between } remaining nodup between_rings
          fun other => (sorted other).sublist (sublist other)
      refine ⟨links, fun rounds enough => ?_, ?_⟩
      · have rest_eq := rest_eq rounds fun other mem => by
          rw [same_list other mem]
          exact enough other (List.mem_cons_of_mem list mem)
        rw [checkLists, checkExpiredList, first_eq rounds (enough list List.mem_cons_self)]
        simp only [Option.bind_eq_bind, Option.bind_some, rest_eq]
        rw [List.flatMap_cons, List.flatMap_congr fun other mem => by rw [same_list other mem]]
        rfl
      · convert left_rings using 1
        funext other
        by_cases same : other = some list
        · have fresh_head : some list ∉ chain.map some := fun mem =>
            fresh ((List.mem_map_of_injective (Option.some_injective κ)).1 mem)
          rw [same, if_pos (List.mem_map_of_mem List.mem_cons_self), if_neg fresh_head]
          exact (Function.update_self (some list) _ lists).symm
        · rw [show remaining other = lists other from Function.update_of_ne same ..]
          rw [List.map_cons]
          exact if_congr (List.mem_cons.trans (or_iff_right same)) rfl rfl

/-- The loop of `ExpireMicroSeconds` finds the least of `exp` and the times of expiry. -/
theorem expLoop_eq (rings : unit.links.Rings lists)
    (sorted : ∀ list, (lists list).Pairwise fun first second =>
      unit.objexp first ≤ unit.objexp second) (chain : List κ) (exp : Int) :
    ∃ least, unit.expLoop chain exp = some least ∧ least ≤ exp ∧
      (∀ list ∈ chain, ∀ object ∈ lists (some list), least ≤ unit.objexp object) ∧
      (least = exp ∨ ∃ list ∈ chain, ∃ object ∈ lists (some list), least = unit.objexp object) := by
  induction chain generalizing exp with
  | nil => exact ⟨exp, rfl, le_refl exp, fun _ mem => absurd mem List.not_mem_nil, Or.inl rfl⟩
  | cons list chain induction =>
      rw [expLoop]
      cases list_eq : lists (some list) with
      | nil =>
          rw [if_pos ((listEmpty_iff rings).2 list_eq)]
          obtain ⟨least, loops, le, all_le, attained⟩ := induction exp
          refine ⟨least, loops, le, List.forall_mem_cons.2 ⟨?_, all_le⟩, attained.imp_right ?_⟩
          · rw [list_eq]
            exact fun _ mem => absurd mem List.not_mem_nil
          · rintro ⟨other, mem, found⟩
            exact ⟨other, List.mem_cons_of_mem list mem, found⟩
      | cons object rest =>
          rw [if_neg fun empty => by
            rw [(listEmpty_iff rings).1 empty] at list_eq
            cases list_eq]
          simp only [nextOwner_eq rings list_eq, Option.bind_eq_bind, Option.bind_some]
          have first_le : ∀ other ∈ lists (some list), unit.objexp object ≤ unit.objexp other := by
            have ordered := sorted (some list)
            rw [list_eq] at ordered ⊢
            exact List.forall_mem_cons.2 ⟨le_refl _, (List.pairwise_cons.1 ordered).1⟩
          obtain ⟨least, loops, le, all_le, attained⟩ :=
            induction (if unit.objexp object < exp then unit.objexp object else exp)
          have member : object ∈ lists (some list) := list_eq ▸ List.mem_cons_self
          refine ⟨least, loops, ?_, List.forall_mem_cons.2 ⟨fun other mem => ?_, all_le⟩, ?_⟩
          · split at le <;> omega
          · have := first_le other mem
            split at le <;> omega
          · rcases attained with rfl | ⟨other, mem, found⟩
            · split
              · exact Or.inr ⟨list, List.mem_cons_self, object, member, rfl⟩
              · exact Or.inl rfl
            · exact Or.inr ⟨other, List.mem_cons_of_mem list mem, found⟩

end Lists

end CTimerUnit

end Spp
