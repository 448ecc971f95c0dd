import Mathlib.Algebra.BigOperators.Group.Finset.Piecewise
import Mathlib.Data.BitVec
import Mathlib.Data.Fintype.Prod
import Mathlib.Data.List.FinRange
import Mathlib.Logic.Relation
import Mathlib.Tactic.LinearCombination
import Mathlib.Tactic.Ring

/-!
# Counters shared without a lock

All processes of a machine report to one shared memory of forty rows, and an attribute has one
candidate node in every row.  `CreateOrUpdateNode` looks for the node of its attribute row by row,
creates it in the first row it found empty, and writes by compare-and-swap only.
-/

namespace Spp
namespace AttrApi

/-- `AGENT_ATTR_NODE`: the halves of a 64-bit word that is read and swapped as a whole. -/
structure AgentAttrNode where
  attrId : BitVec 32
  curVal : BitVec 32
deriving DecidableEq

/-- `g_arrMod` -/
def arrMod (row : Fin 40) : Nat :=
  [998, 997, 991, 983, 982, 977, 976, 974, 971, 967, 964, 958, 956, 953, 947, 944, 941, 937, 934,
    932, 929, 926, 922, 919, 916, 914, 911, 908, 907, 904, 898, 892, 887, 886, 883, 881, 878, 877,
    872, 866].get row

theorem mod_arrMod_lt (hash : Nat) (row : Fin 40) : hash % arrMod row < 1000 := by
  have bounds : ∀ row, 0 < arrMod row ∧ arrMod row < 1000 := by decide
  exact (Nat.mod_lt hash (bounds row).1).trans (bounds row).2

/-- The shared memory. -/
abbrev Shm := Fin 40 × Fin 1000 → AgentAttrNode

/-- The candidate node of an attribute in a row. -/
def slot (attrId : BitVec 32) (row : Fin 40) : Fin 40 × Fin 1000 :=
  (row, ⟨attrId.toNat % arrMod row, mod_arrMod_lt attrId.toNat row⟩)

/-- A call of `Attr_API`, `Attr_API_EX` or `Attr_API_Set`, or of itself by `CreateOrUpdateNode`. -/
structure AttrCall where
  attrId : BitVec 32
  newVal : BitVec 32
  recurDepth : Nat := 0

/-- Where a process is in `CreateOrUpdateNode`. -/
inductive Place where
  | idle
  /-- The rows to come, and the rows found empty. -/
  | scanning (call : AttrCall) (rows empty : List (Fin 40))
  /-- The row is not empty, and its attribute is read once more. -/
  | comparing (call : AttrCall) (row : Fin 40) (rows empty : List (Fin 40))
  /-- `UpdateNode` is called. -/
  | found (call : AttrCall) (row : Fin 40)
  | updating (call : AttrCall) (row : Fin 40) (stNodeCopy : AgentAttrNode)
  | creating (call : AttrCall) (empty : List (Fin 40))
  /-- The swap on an empty node has failed. -/
  | occupied (call : AttrCall) (row : Fin 40) (empty : List (Fin 40))
  /-- No row was empty, and a node with the value zero is looked for. -/
  | recycling (call : AttrCall) (rows : List (Fin 40))
  | reusing (call : AttrCall) (row : Fin 40) (stNodeCopy : AgentAttrNode) (rows : List (Fin 40))

/-- It is about to recycle a node. -/
def Place.recycles : Place → Bool
  | .recycling .. | .reusing .. => true
  | _ => false

/-- The checks on entry to `CreateOrUpdateNode`. -/
def AttrCall.enter (call : AttrCall) : Place :=
  if 50 < call.recurDepth ∨ call.attrId = 0 then .idle else .scanning call (List.finRange 40) []

/-- The next recursion. -/
def AttrCall.retry (call : AttrCall) : Place :=
  { call with recurDepth := call.recurDepth + 1 }.enter

/-- `callback_AddValue` -/
def addValue (curVal newVal : BitVec 32) : BitVec 32 := curVal + newVal

/-- `callback_SetValue` -/
def setValue (_curVal newVal : BitVec 32) : BitVec 32 := newVal

/-- A successful swap; the call then returns zero. -/
structure Swap where
  call : AttrCall
  row : Fin 40
  value : BitVec 32

/-- The node of a swap. -/
abbrev Swap.place (swap : Swap) : Fin 40 × Fin 1000 := slot swap.call.attrId swap.row

/-- What a swap stores. -/
def Swap.node (swap : Swap) : AgentAttrNode := ⟨swap.call.attrId, swap.value⟩

/-- One access to the shared memory. -/
def Place.next (updateNode : BitVec 32 → BitVec 32 → BitVec 32) (shm : Shm) :
    Place → Place × Option Swap
  | .idle => (.idle, none)
  | .scanning call [] [] => (.recycling call (List.finRange 40).reverse, none)
  | .scanning call [] empty => (.creating call empty, none)
  | .scanning call (row :: rows) empty =>
    if (shm (slot call.attrId row)).attrId = 0 then (.scanning call rows (empty ++ [row]), none)
    else (.comparing call row rows empty, none)
  | .comparing call row rows empty =>
    if (shm (slot call.attrId row)).attrId = call.attrId then (.found call row, none)
    else (.scanning call rows empty, none)
  | .found call row =>
    let stNodeCopy := shm (slot call.attrId row)
    (if stNodeCopy.attrId = call.attrId then .updating call row stNodeCopy else call.retry, none)
  | .updating call row stNodeCopy =>
    if shm (slot call.attrId row) = stNodeCopy then
      (.idle, some ⟨call, row, updateNode stNodeCopy.curVal call.newVal⟩)
    else (call.retry, none)
  | .creating _ [] => (.idle, none)
  | .creating call (row :: empty) =>
    if shm (slot call.attrId row) = ⟨0, 0⟩ then (.idle, some ⟨call, row, call.newVal⟩)
    else (.occupied call row empty, none)
  | .occupied call row empty =>
    (if (shm (slot call.attrId row)).attrId = call.attrId then call.retry
      else .creating call empty, none)
  | .recycling _ [] => (.idle, none)
  | .recycling call (row :: rows) =>
    let stNodeCopy := shm (slot call.attrId row)
    (if stNodeCopy.curVal = 0 then .reusing call row stNodeCopy rows
      else .recycling call rows, none)
  | .reusing call row stNodeCopy rows =>
    if shm (slot call.attrId row) = stNodeCopy then (.idle, some ⟨call, row, call.newVal⟩)
    else (.recycling call rows, none)

/-- The nodes, and where each process is. -/
structure Attributes (π : Type*) where
  shm : Shm
  place : π → Place
  /-- The calls that have returned zero, in the order of their swaps. -/
  done : List AttrCall

/-- Before all calls. -/
def blankAttributes (π : Type*) : Attributes π := ⟨fun _ => ⟨0, 0⟩, fun _ => .idle, []⟩

section Steps

variable {π : Type*} [DecidableEq π] (updateNode : BitVec 32 → BitVec 32 → BitVec 32)

/-- A process begins a call, or it accesses the shared memory once. -/
inductive AttrStep : Attributes π → Attributes π → Prop where
  | call {system : Attributes π} {who : π} (idle : system.place who = .idle)
      (attrId newVal : BitVec 32) :
      AttrStep system
        { system with
          place := Function.update system.place who (AttrCall.enter { attrId, newVal }) }
  | read {system : Attributes π} {who : π} {place : Place}
      (next : (system.place who).next updateNode system.shm = (place, none)) :
      AttrStep system { system with place := Function.update system.place who place }
  | swap {system : Attributes π} {who : π} {place : Place} {swap : Swap}
      (next : (system.place who).next updateNode system.shm = (place, some swap)) :
      AttrStep system
        { shm := Function.update system.shm swap.place swap.node
          place := Function.update system.place who place
          done := system.done ++ [swap.call] }

/-- A step after which no call looks for a node to recycle. -/
def RoomyStep (before after : Attributes π) : Prop :=
  AttrStep updateNode before after ∧ ∀ who, (after.place who).recycles = false

/-- The value of an attribute if the calls run one after the other. -/
def sequential (done : List AttrCall) (attrId : BitVec 32) : BitVec 32 :=
  done.foldl (fun value call =>
    if call.attrId = attrId then updateNode value call.newVal else value) 0

end Steps

variable {π : Type*} {updateNode : BitVec 32 → BitVec 32 → BitVec 32} {shm : Shm}
  {place after : Place} {attrId : BitVec 32} {row : Fin 40}

theorem sequential_snoc (done : List AttrCall) (call : AttrCall) (attrId : BitVec 32) :
    sequential updateNode (done ++ [call]) attrId =
      if call.attrId = attrId then updateNode (sequential updateNode done attrId) call.newVal
      else sequential updateNode done attrId := by
  simp [sequential]

theorem sequential_eq_zero {done : List AttrCall}
    (other : ∀ call ∈ done, call.attrId ≠ attrId) : sequential updateNode done attrId = 0 := by
  induction done using List.reverseRecOn with
  | nil => rfl
  | append_singleton done call induction =>
      rw [sequential_snoc, if_neg (other call (by simp))]
      exact induction fun earlier member => other earlier (by simp [member])

theorem Place.next_some {swap : Swap}
    (next : place.next updateNode shm = (after, some swap)) :
    after = .idle ∧
      ((place = .updating swap.call swap.row (shm swap.place) ∧
          swap.value = updateNode (shm swap.place).curVal swap.call.newVal) ∨
        (∃ empty, place = .creating swap.call (swap.row :: empty) ∧ shm swap.place = ⟨0, 0⟩ ∧
          swap.value = swap.call.newVal) ∨
        ∃ rows, place = .reusing swap.call swap.row (shm swap.place) rows ∧
          swap.value = swap.call.newVal) := by
  unfold Place.next at next
  split at next <;> try split at next
  all_goals cases next
  case h_7.isTrue.refl same => exact ⟨rfl, .inl ⟨by rw [same], by rw [same]⟩⟩
  case h_9.isTrue.refl blank => exact ⟨rfl, .inr (.inl ⟨_, rfl, blank, rfl⟩)⟩
  case h_13.isTrue.refl same => exact ⟨rfl, .inr (.inr ⟨_, by rw [same], rfl⟩)⟩

/-! ## Runs -/

section Play

variable [DecidableEq π]

/-- One access of a process to the shared memory. -/
def Attributes.access (updateNode : BitVec 32 → BitVec 32 → BitVec 32) (system : Attributes π)
    (who : π) : Attributes π :=
  match (system.place who).next updateNode system.shm with
  | (place, none) => { system with place := Function.update system.place who place }
  | (place, some swap) =>
      { shm := Function.update system.shm swap.place swap.node
        place := Function.update system.place who place
        done := system.done ++ [swap.call] }

theorem Attributes.access_step (system : Attributes π) (who : π) :
    AttrStep updateNode system (system.access updateNode who) := by
  rw [access]
  split
  · exact .read ‹_›
  · exact .swap ‹_›

/-- A process that is idle begins a call. -/
def Attributes.begin (system : Attributes π) (who : π) (attrId newVal : BitVec 32) :
    Option (Attributes π) :=
  match system.place who with
  | .idle => some { system with
      place := Function.update system.place who (AttrCall.enter { attrId, newVal }) }
  | _ => none

/-- Calls and accesses of processes; there is no result if a call looks for a node to recycle. -/
def Attributes.play [Fintype π] (updateNode : BitVec 32 → BitVec 32 → BitVec 32) :
    (moves : List (π × Option (BitVec 32 × BitVec 32))) → Attributes π → Option (Attributes π)
  | [], system => some system
  | (who, some (attrId, newVal)) :: moves, system =>
      (system.begin who attrId newVal).bind fun after =>
        if ∀ other, (after.place other).recycles = false then after.play updateNode moves else none
  | (who, none) :: moves, system =>
      let after := system.access updateNode who
      if ∀ other, (after.place other).recycles = false then after.play updateNode moves else none

theorem Attributes.play_reached [Fintype π] {moves : List (π × Option (BitVec 32 × BitVec 32))}
    {system later : Attributes π} (played : system.play updateNode moves = some later) :
    Relation.ReflTransGen (RoomyStep updateNode) system later := by
  fun_induction play updateNode moves system with
  | case1 system =>
      cases played
      exact .refl
  | case2 who attrId newVal moves system induction =>
      obtain ⟨after, begins, rest⟩ := Option.bind_eq_some_iff.1 played
      split at rest
      · rename_i roomy
        refine .head ⟨?_, roomy⟩ (induction after rest)
        unfold begin at begins
        split at begins <;> cases begins
        exact .call ‹_› attrId newVal
      · cases rest
  | case3 who moves system after roomy induction =>
      exact .head ⟨system.access_step who, roomy⟩ (induction played)
  | case4 who moves system after roomy => cases played

end Play

/-- Two processes create the node of the attribute 7 at the same time; the second one then loses a
swap to another call of the first one. -/
def contended : List (Bool × Option (BitVec 32 × BitVec 32)) :=
  (false, some (7, 5)) :: (true, some (7, 4)) :: List.replicate 41 (false, none) ++
    List.replicate 41 (true, none) ++ List.replicate 1 (false, none) ++
    List.replicate 5 (true, none) ++ (false, some (7, 6)) :: List.replicate 4 (false, none) ++
    List.replicate 5 (true, none)

/-! ## No update is lost -/

/-- What a node adds to the total of an attribute. -/
def AgentAttrNode.share (node : AgentAttrNode) (attrId : BitVec 32) : BitVec 32 :=
  if node.attrId = attrId then node.curVal else 0

/-- The total of an attribute over all nodes. -/
def total (shm : Shm) (attrId : BitVec 32) : BitVec 32 := ∑ place, (shm place).share attrId

theorem total_update (place : Fin 40 × Fin 1000) (node : AgentAttrNode) (attrId : BitVec 32) :
    total (Function.update shm place node) attrId + (shm place).share attrId =
      total shm attrId + node.share attrId := by
  have shares : (fun other => (Function.update shm place node other).share attrId) =
      Function.update (fun other => (shm other).share attrId) place (node.share attrId) := by
    funext other
    rcases eq_or_ne other place with rfl | apart
    · simp
    · simp [apart]
  rw [total, total, shares, Finset.sum_update_of_mem (Finset.mem_univ place),
    Finset.sdiff_singleton_eq_erase,
    ← Finset.add_sum_erase _ (fun other => (shm other).share attrId) (Finset.mem_univ place)]
  ring

/-- What a process has checked in its copy of a node. -/
def Place.Copied : Place → Prop
  | .updating call _ stNodeCopy => stNodeCopy.attrId = call.attrId
  | .reusing _ _ stNodeCopy _ => stNodeCopy.curVal = 0
  | _ => True

theorem AttrCall.copied_enter (call : AttrCall) : call.enter.Copied := by
  unfold AttrCall.enter
  split <;> trivial

theorem Place.copied_next {swap : Option Swap}
    (next : place.next updateNode shm = (after, swap)) : after.Copied := by
  unfold Place.next at next
  split at next <;> try split at next
  all_goals
    obtain ⟨rfl, -⟩ := Prod.mk.inj next
    first
    | trivial
    | exact AttrCall.copied_enter _
    | (split <;> first | assumption | exact AttrCall.copied_enter _ | trivial)

theorem Place.Copied.swap {swap : Swap} (copied : place.Copied)
    (next : place.next addValue shm = (after, some swap)) (attrId : BitVec 32) :
    swap.node.share attrId = (shm swap.place).share attrId +
      if swap.call.attrId = attrId then swap.call.newVal else 0 := by
  obtain ⟨-, ⟨rfl, value⟩ | ⟨empty, rfl, blank, value⟩ | ⟨rows, rfl, value⟩⟩ := Place.next_some next
  · rw [AgentAttrNode.share, AgentAttrNode.share, Swap.node, copied, value]
    split <;> simp [addValue]
  · simp [AgentAttrNode.share, Swap.node, blank, value]
  · have zero : (shm swap.place).curVal = 0 := copied
    simp [AgentAttrNode.share, Swap.node, zero, value]

theorem forall_update [DecidableEq π] {holds : Place → Prop} {places : π → Place} {who : π}
    (changed : holds place) (others : ∀ other, holds (places other)) (other : π) :
    holds (Function.update places who place other) := by
  rcases eq_or_ne other who with rfl | apart
  · rwa [Function.update_self]
  · rw [Function.update_of_ne apart]
    exact others other

/-- In every interleaving the nodes of an attribute hold together what the calls that returned zero
have added. -/
theorem attrStep_total [DecidableEq π] {system : Attributes π}
    (run : Relation.ReflTransGen (AttrStep addValue) (blankAttributes π) system)
    (attrId : BitVec 32) :
    total system.shm attrId = sequential addValue system.done attrId := by
  suffices both : total system.shm attrId = sequential addValue system.done attrId ∧
      ∀ who, (system.place who).Copied from both.1
  induction run with
  | refl => exact ⟨Finset.sum_eq_zero fun place _ => ite_self 0, fun _ => trivial⟩
  | @tail before after _ step induction =>
      obtain ⟨equal, copied⟩ := induction
      cases step with
      | call idle => exact ⟨equal, forall_update (AttrCall.copied_enter _) copied⟩
      | read next => exact ⟨equal, forall_update (Place.copied_next next) copied⟩
      | @swap who place swap next =>
          refine ⟨?_, forall_update (Place.copied_next next) copied⟩
          have update := @total_update before.shm swap.place swap.node attrId
          rw [(copied who).swap next attrId, equal] at update
          rw [sequential_snoc]
          split at update <;> rename_i same
          · rw [if_pos same, addValue]
            linear_combination update
          · rw [if_neg same]
            linear_combination update

theorem contended_isSome : ((blankAttributes Bool).play addValue contended).isSome = true := by
  decide

theorem attrStep_total_contended :
    ∃ system : Attributes Bool, system.done.map AttrCall.newVal = [5, 6, 4] ∧
      total system.shm 7 = 15 := by
  have run := Attributes.play_reached (Option.some_get contended_isSome).symm
  have equal := attrStep_total (run.lift id fun _ _ step => step.1) 7
  exact ⟨_, by decide, equal.trans (by decide)⟩

/-! ## One node for an attribute -/

/-- The candidate node belongs to another attribute. -/
def Taken (shm : Shm) (attrId : BitVec 32) (row : Fin 40) : Prop :=
  (shm (slot attrId row)).attrId ≠ 0 ∧ (shm (slot attrId row)).attrId ≠ attrId

/-- Outside the rows that are left, every candidate node belongs to another attribute. -/
structure Surveyed (shm : Shm) (attrId : BitVec 32) (rows : List (Fin 40)) : Prop where
  nonzero : attrId ≠ 0
  sorted : rows.Pairwise (· < ·)
  taken : ∀ row ∉ rows, Taken shm attrId row

/-- What a process knows if no node has been recycled. -/
def Place.Sound (shm : Shm) : Place → Prop
  | .idle => True
  | .scanning call rows empty => Surveyed shm call.attrId (empty ++ rows)
  | .comparing call row rows empty =>
    Surveyed shm call.attrId (empty ++ row :: rows) ∧ (shm (slot call.attrId row)).attrId ≠ 0
  | .found call _ => call.attrId ≠ 0
  | .updating call _ stNodeCopy => call.attrId ≠ 0 ∧ stNodeCopy.attrId = call.attrId
  | .creating call empty => Surveyed shm call.attrId empty
  | .occupied call row empty =>
    Surveyed shm call.attrId (row :: empty) ∧ (shm (slot call.attrId row)).attrId ≠ 0
  | .recycling .. | .reusing .. => False

theorem Surveyed.remove {before rest : List (Fin 40)}
    (surveyed : Surveyed shm attrId (before ++ row :: rest)) (taken : Taken shm attrId row) :
    Surveyed shm attrId (before ++ rest) where
  nonzero := surveyed.nonzero
  sorted := surveyed.sorted.sublist ((List.sublist_cons_self row rest).append_left before)
  taken other outside := by
    rcases eq_or_ne other row with rfl | apart
    · exact taken
    · apply surveyed.taken
      simp_all

theorem AttrCall.sound_enter (call : AttrCall) : call.enter.Sound shm := by
  unfold AttrCall.enter
  split
  · trivial
  · rename_i entered
    exact ⟨fun zero => entered (.inr zero), List.pairwise_lt_finRange 40,
      fun row outside => absurd (List.mem_finRange row) outside⟩

/-- Nodes keep their attribute. -/
def Keeps (before after : Shm) : Prop :=
  ∀ place, (before place).attrId ≠ 0 → (after place).attrId = (before place).attrId

theorem Keeps.taken {later : Shm} (keeps : Keeps shm later) (taken : Taken shm attrId row) :
    Taken later attrId row := by
  rwa [Taken, keeps _ taken.1]

theorem Keeps.sound {later : Shm} (keeps : Keeps shm later) (sound : place.Sound shm) :
    place.Sound later := by
  have surveyed {attrId : BitVec 32} {rows : List (Fin 40)} (known : Surveyed shm attrId rows) :
      Surveyed later attrId rows :=
    { known with taken := fun row outside => keeps.taken (known.taken row outside) }
  cases place with
  | idle | found | updating => exact sound
  | scanning | creating => exact surveyed sound
  | comparing | occupied => exact ⟨surveyed sound.1, by rw [keeps _ sound.2]; exact sound.2⟩
  | recycling | reusing => exact sound

theorem Place.Sound.read (sound : place.Sound shm)
    (blank : ∀ place, (shm place).attrId = 0 → shm place = ⟨0, 0⟩)
    (next : place.next updateNode shm = (after, none)) (roomy : after.recycles = false) :
    after.Sound shm := by
  cases place with
  | idle =>
      cases next
      trivial
  | scanning call rows empty =>
      cases rows with
      | nil =>
          cases empty with
          | nil =>
              cases next
              cases roomy
          | cons row empty =>
              cases next
              simpa [Place.Sound] using sound
      | cons row rows =>
          rw [Place.next] at next
          split at next <;> cases next <;> rename_i read
          · simpa [Place.Sound] using sound
          · exact ⟨sound, read⟩
  | comparing call row rows empty =>
      rw [Place.next] at next
      split at next <;> cases next <;> rename_i read
      · exact sound.1.nonzero
      · exact sound.1.remove ⟨sound.2, read⟩
  | found call row =>
      cases next
      split <;> rename_i read
      · exact ⟨sound, read⟩
      · exact AttrCall.sound_enter _
  | updating call row stNodeCopy =>
      rw [Place.next] at next
      split at next <;> cases next
      exact AttrCall.sound_enter _
  | creating call empty =>
      cases empty with
      | nil =>
          cases next
          trivial
      | cons row empty =>
          rw [Place.next] at next
          split at next <;> cases next
          rename_i differs
          exact ⟨sound, fun zero => differs (blank _ zero)⟩
  | occupied call row empty =>
      cases next
      split <;> rename_i read
      · exact AttrCall.sound_enter _
      · exact @Surveyed.remove _ _ _ [] _ sound.1 ⟨sound.2, read⟩
  | recycling | reusing => exact sound.elim

/-- The memory holds what the calls would leave behind one after the other. -/
structure Attributes.Exact (updateNode : BitVec 32 → BitVec 32 → BitVec 32)
    (system : Attributes π) : Prop where
  blank : ∀ place, (system.shm place).attrId = 0 → system.shm place = ⟨0, 0⟩
  /-- The earlier candidates of a node belong to others. -/
  node : ∀ attrId ≠ 0, ∀ row, (system.shm (slot attrId row)).attrId = attrId →
    (system.shm (slot attrId row)).curVal = sequential updateNode system.done attrId ∧
      ∀ earlier < row, Taken system.shm attrId earlier
  unknown : ∀ attrId ≠ 0, (∀ row, (system.shm (slot attrId row)).attrId ≠ attrId) →
    ∀ call ∈ system.done, call.attrId ≠ attrId
  sound : ∀ who, (system.place who).Sound system.shm

/-- The row of a swap is the only one the attribute can be in, and the value is the next one. -/
structure Swap.Exact (updateNode : BitVec 32 → BitVec 32 → BitVec 32) (system : Attributes π)
    (swap : Swap) : Prop where
  nonzero : swap.call.attrId ≠ 0
  free : (system.shm swap.place).attrId = 0 ∨ (system.shm swap.place).attrId = swap.call.attrId
  only : ∀ row, (system.shm (slot swap.call.attrId row)).attrId = swap.call.attrId → row = swap.row
  earlier : ∀ row < swap.row, Taken system.shm swap.call.attrId row
  value : swap.value =
    updateNode (sequential updateNode system.done swap.call.attrId) swap.call.newVal

variable {system : Attributes π} {swap : Swap}

theorem Attributes.Exact.only (exact : system.Exact updateNode) (nonzero : attrId ≠ 0)
    {other : Fin 40}
    (atRow : (system.shm (slot attrId row)).attrId = attrId)
    (atOther : (system.shm (slot attrId other)).attrId = attrId) : other = row := by
  rcases lt_trichotomy other row with before | same | behind
  · exact absurd atOther ((exact.node attrId nonzero row atRow).2 other before).2
  · exact same
  · exact absurd atRow ((exact.node attrId nonzero other atOther).2 row behind).2

theorem Attributes.Exact.swap_exact (exact : system.Exact updateNode)
    (fresh : ∀ newVal, updateNode 0 newVal = newVal) {who : π}
    (next : (system.place who).next updateNode system.shm = (place, some swap)) :
    swap.Exact updateNode system := by
  have sound := exact.sound who
  obtain ⟨-, ⟨updates, value⟩ | ⟨empty, creates, blank, value⟩ | ⟨rows, reuses, -⟩⟩ :=
    Place.next_some next
  · rw [updates] at sound
    obtain ⟨nonzero, same⟩ := sound
    obtain ⟨current, earlier⟩ := exact.node _ nonzero _ same
    exact ⟨nonzero, .inr same, fun row held => exact.only nonzero same held, earlier,
      by rw [value, current]⟩
  · rw [creates] at sound
    have absent (row : Fin 40) :
        (system.shm (slot swap.call.attrId row)).attrId ≠ swap.call.attrId := by
      intro held
      have left : row ∈ swap.row :: empty :=
        Classical.byContradiction fun outside => (sound.taken row outside).2 held
      rcases List.mem_cons.mp left with rfl | later
      · rw [blank] at held
        exact sound.nonzero held.symm
      · have before := (List.pairwise_cons.mp sound.sorted).1 row later
        have taken := (exact.node _ sound.nonzero row held).2 swap.row before
        exact taken.1 (by rw [blank])
    refine ⟨sound.nonzero, .inl (by rw [blank]), fun row held => absurd held (absent row), ?_, ?_⟩
    · intro row before
      apply sound.taken row
      intro left
      rcases List.mem_cons.mp left with rfl | later
      · exact lt_irrefl _ before
      · exact lt_asymm before ((List.pairwise_cons.mp sound.sorted).1 row later)
    · rw [sequential_eq_zero (exact.unknown _ sound.nonzero absent), fresh, value]
  · rw [reuses] at sound
    exact sound.elim

theorem Swap.Exact.keeps (new : swap.Exact updateNode system) :
    Keeps system.shm (Function.update system.shm swap.place swap.node) := by
  intro place used
  rcases eq_or_ne place swap.place with rfl | apart
  · rw [Function.update_self]
    exact (new.free.resolve_left used).symm
  · rw [Function.update_of_ne apart]

theorem Attributes.Exact.step [DecidableEq π] {later : Attributes π}
    (exact : system.Exact updateNode) (fresh : ∀ newVal, updateNode 0 newVal = newVal)
    (step : RoomyStep updateNode system later) : later.Exact updateNode := by
  obtain ⟨step, roomy⟩ := step
  cases step with
  | call idle =>
      exact { exact with sound := forall_update (AttrCall.sound_enter _) exact.sound }
  | @read who place next =>
      have still : place.recycles = false := by simpa using roomy who
      exact { exact with
        sound := forall_update ((exact.sound who).read exact.blank next still) exact.sound }
  | @swap who place swap next =>
      have new := exact.swap_exact fresh next
      -- A node that does not show the attribute of the call is not the one written.
      have elsewhere {place : Fin 40 × Fin 1000} {attrId : BitVec 32}
          (shown : (Function.update system.shm swap.place swap.node place).attrId = attrId)
          (other : attrId ≠ swap.call.attrId) : place ≠ swap.place := by
        rintro rfl
        rw [Function.update_self] at shown
        exact other shown.symm
      refine ⟨?_, ?_, ?_, forall_update ?_ fun other => new.keeps.sound (exact.sound other)⟩
      all_goals dsimp only
      · intro place zero
        have apart := elsewhere zero new.nonzero.symm
        rw [Function.update_of_ne apart] at zero ⊢
        exact exact.blank place zero
      · intro attrId nonzero row held
        rcases eq_or_ne attrId swap.call.attrId with rfl | other
        · rcases eq_or_ne row swap.row with rfl | apart
          · rw [Function.update_self, sequential_snoc, if_pos rfl]
            exact ⟨new.value, fun row before => new.keeps.taken (new.earlier row before)⟩
          · rw [Function.update_of_ne fun same => apart (congrArg Prod.fst same)] at held
            exact absurd (new.only row held) apart
        · have apart := elsewhere held other
          rw [Function.update_of_ne apart] at held ⊢
          obtain ⟨current, earlier⟩ := exact.node attrId nonzero row held
          rw [sequential_snoc, if_neg other.symm]
          exact ⟨current, fun row before => new.keeps.taken (earlier row before)⟩
      · intro attrId nonzero absent call member
        rcases List.mem_append.mp member with past | last
        · refine exact.unknown attrId nonzero (fun row held => absent row ?_) call past
          rw [new.keeps _ (by rwa [held]), held]
        · rw [List.mem_singleton.mp last]
          rintro rfl
          exact absent swap.row (by rw [Function.update_self, Swap.node])
      · rw [(Place.next_some next).1]
        trivial

theorem roomyStep_exact [DecidableEq π] (fresh : ∀ newVal, updateNode 0 newVal = newVal)
    (run : Relation.ReflTransGen (RoomyStep updateNode) (blankAttributes π) system) :
    system.Exact updateNode := by
  induction run with
  | refl =>
      exact ⟨fun _ _ => rfl, fun _ nonzero _ zero => absurd zero.symm nonzero,
        fun _ _ _ _ member => absurd member List.not_mem_nil, fun _ => trivial⟩
  | tail _ step induction => exact induction.step fresh step

/-- While every call finds its node or an empty one, an attribute has one node or none.  The value
of the node is the one that the calls would leave behind one after the other, and without a node no
call for the attribute has returned zero. -/
theorem roomyStep_node [DecidableEq π] (fresh : ∀ newVal, updateNode 0 newVal = newVal)
    (run : Relation.ReflTransGen (RoomyStep updateNode) (blankAttributes π) system)
    (nonzero : attrId ≠ 0) :
    (∃ row, (∀ other, (system.shm (slot attrId other)).attrId = attrId ↔ other = row) ∧
        (system.shm (slot attrId row)).curVal = sequential updateNode system.done attrId) ∨
      (∀ row, (system.shm (slot attrId row)).attrId ≠ attrId) ∧
        ∀ call ∈ system.done, call.attrId ≠ attrId := by
  have exact := roomyStep_exact fresh run
  by_cases shown : ∃ row, (system.shm (slot attrId row)).attrId = attrId
  · obtain ⟨row, held⟩ := shown
    refine .inl ⟨row, fun other => ⟨fun shown => exact.only nonzero held shown, ?_⟩,
      (exact.node attrId nonzero row held).1⟩
    rintro rfl
    exact held
  · push Not at shown
    exact .inr ⟨shown, exact.unknown attrId nonzero shown⟩

theorem contended_set_isSome :
    ((blankAttributes Bool).play setValue contended).isSome = true := by
  decide

/-- Adding leaves the sum behind, setting the value of the last swap. -/
theorem roomyStep_node_contended :
    (∃ system : Attributes Bool, system.done.map AttrCall.newVal = [5, 6, 4] ∧
      ∃ row, (∀ other, (system.shm (slot 7 other)).attrId = 7 ↔ other = row) ∧
        (system.shm (slot 7 row)).curVal = 15) ∧
    ∃ system : Attributes Bool, system.done.map AttrCall.newVal = [5, 6, 4] ∧
      ∃ row, (∀ other, (system.shm (slot 7 other)).attrId = 7 ↔ other = row) ∧
        (system.shm (slot 7 row)).curVal = 4 := by
  constructor
  · have run := Attributes.play_reached (Option.some_get contended_isSome).symm
    obtain ⟨row, only, value⟩ | ⟨absent, -⟩ :=
      roomyStep_node (fun newVal => BitVec.zero_add newVal) run (show (7 : BitVec 32) ≠ 0 by decide)
    · exact ⟨_, by decide, row, only, value.trans (by decide)⟩
    · exact absurd (by decide) (absent 0)
  · have run := Attributes.play_reached (Option.some_get contended_set_isSome).symm
    obtain ⟨row, only, value⟩ | ⟨absent, -⟩ :=
      roomyStep_node (fun newVal => rfl) run (show (7 : BitVec 32) ≠ 0 by decide)
    · exact ⟨_, by decide, row, only, value.trans (by decide)⟩
    · exact absurd (by decide) (absent 0)

end AttrApi
end Spp
