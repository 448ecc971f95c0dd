import Spp.Lib.MachineInt
import Mathlib.Data.List.Sort
import Mathlib.Tactic

/-!
# Registered channels, `TCommuSvrDisp` and `TNetCommuServer`

The proxy side of `nest/comm/nest_commu.cpp` and `weight_schedule.cpp`.  The dispatcher keeps all
channels by their fd and those that have not registered yet in a second map; a registration message
names a group, and the server of this group lists the channel twice, in its own list and in the list
of the weight scheduler.  The cookie of a channel is its server.

Channels and servers are pointers of types `χ` and `σ`.  A use of a channel that has been deleted is
a failure (`none`), and so is the use of an iterator whose element has been erased from a map.  The
vectors of a server are lists, and an iterator of a vector is an index.  What a channel receives is
an argument of the calls that look into its read cache: the messages that are handled, and what the
call returns.
-/

namespace Spp

/-- The part of `TNestChannel` that registration uses, with `IDispatchAble`. -/
structure ChannelObject (σ : Type) where
  fd : Nat
  cookie : Option σ
  weight : Nat
  maxWeight : Nat

/-- `TNetCommuServer` -/
structure CommuServer (χ : Type) where
  channelList : List χ
  itemList : List χ
  incStep : Nat
  decStep : Nat
  totalTimes : Nat
  randSeed : Nat

/-- `TCommuSvrDisp` with the channels and the servers. -/
structure SvrDisp (χ σ : Type) where
  /-- The channels that have been made and not been deleted. -/
  channel : χ → Option (ChannelObject σ)
  channelMap : Nat → Option χ
  unRigsted : List (Nat × χ)
  server : σ → CommuServer χ

namespace CommuServer

variable {χ : Type} [DecidableEq χ]

/-- A new server. -/
def init : CommuServer χ := ⟨[], [], 1000, 960, 0, 1⟩

/-- `MAX_QUOTA` -/
def maxQuota : Nat := 10000

/-- `add_item` -/
def addItem (server : CommuServer χ) (item : χ) : CommuServer χ :=
  if item ∈ server.itemList then
    server
  else
    { server with itemList := server.itemList ++ [item] }

/-- `set_step_params` -/
def setStepParams (server : CommuServer χ) (dec : Option Nat) : CommuServer χ :=
  match dec with
  | none => server
  | some dec =>
      if dec > 0 then
        { server with decStep := dec, incStep := u32 (dec + dec / 20) }
      else
        server

/-- One step of `random`. -/
def randomNext (seed : Nat) : Nat := u32 (u32 (seed * 1103515245) + 12345)

/-- `random`: the number and the next seed. -/
def random (seed : Nat) : Nat × Nat :=
  let first := randomNext seed
  let second := randomNext first
  let third := randomNext second
  let result := first / 65536 % 2048
  let result := u32 (result * 1024) ^^^ (second / 65536 % 1024)
  let result := u32 (result * 1024) ^^^ (third / 65536 % 1024)
  (result, third)

end CommuServer

namespace SvrDisp

variable {χ σ : Type} [DecidableEq χ] [DecidableEq σ]

/-- No channel is connected. -/
def start : SvrDisp χ σ := ⟨fun _ => none, fun _ => none, [], fun _ => .init⟩

/-- A channel changes. -/
def setChannel (disp : SvrDisp χ σ) (conn : χ) (object : ChannelObject σ) : SvrDisp χ σ :=
  { disp with channel := Function.update disp.channel conn (some object) }

/-- A server changes. -/
def setServer (disp : SvrDisp χ σ) (ptr : σ) (server : CommuServer χ) : SvrDisp χ σ :=
  { disp with server := Function.update disp.server ptr server }

/-- `inc_weight` -/
def incWeight (step : Nat) (object : ChannelObject σ) : ChannelObject σ :=
  if u32 (object.weight + step) > object.maxWeight then
    { object with weight := object.maxWeight }
  else
    { object with weight := u32 (object.weight + step) }

/-- `dec_weight` -/
def decWeight (step : Nat) (object : ChannelObject σ) : ChannelObject σ :=
  if object.weight < u32 (step + 1) then
    { object with weight := 1 }
  else
    { object with weight := u32 (object.weight - step) }

/-- The loop of `find_detect_item`: the item and the next seed. -/
def detectLoop (disp : SvrDisp χ σ) : (items : List χ) → (min : Option (χ × Nat)) → (seed : Nat) →
    Option (Option χ × Nat)
  | [], min, seed => some (min.map Prod.fst, seed)
  | item :: items, min, seed => do
      let object ← disp.channel item
      match min with
      | none => detectLoop disp items (some (item, object.weight)) seed
      | some (least, weight) =>
          if object.weight < weight then
            detectLoop disp items (some (item, object.weight)) seed
          else if object.weight = weight then
            let drawn := CommuServer.random seed
            if drawn.1 % 2 ≠ 0 then
              detectLoop disp items (some (item, object.weight)) drawn.2
            else
              detectLoop disp items (some (least, weight)) drawn.2
          else
            detectLoop disp items (some (least, weight)) seed

/-- The first loop of `get_next_item`: `total_quota`. -/
def totalQuota (disp : SvrDisp χ σ) : (items : List χ) → (total : Nat) → Option Nat
  | [], total => some total
  | item :: items, total => do
      let object ← disp.channel item
      totalQuota disp items (u32 (total + object.weight))

/-- The second loop of `get_next_item`, where `last` is `item`. -/
def drawLoop (disp : SvrDisp χ σ) : (items : List χ) → (last : Option χ) → (rand : Nat) →
    Option (Option χ)
  | [], last, _ => some last
  | item :: items, _, rand => do
      let object ← disp.channel item
      if rand < object.weight then
        return some item
      else
        drawLoop disp items (some item) (rand - object.weight)

/-- `_wakeup_frq` -/
def wakeupFrq : Nat := 10000

/-- `get_next_item` after `_total_times` has been counted: the item and the next seed. -/
def nextItem (disp : SvrDisp χ σ) (server : CommuServer χ) : Option (Option χ × Nat) :=
  if server.totalTimes % wakeupFrq = wakeupFrq - 1 then
    disp.detectLoop server.itemList none server.randSeed
  else do
    let total ← disp.totalQuota server.itemList 0
    let drawn := CommuServer.random server.randSeed
    let item ← disp.drawLoop server.itemList server.itemList.getLast?
      (drawn.1 % if total > 0 then total else 1)
    return (item, drawn.2)

/-- `get_next_item` -/
def getNextItem (disp : SvrDisp χ σ) (ptr : σ) : Option (Option χ × SvrDisp χ σ) := do
  let server := disp.server ptr
  let server := { server with totalTimes := u64 (server.totalTimes + 1) }
  let next ← disp.nextItem server
  return (next.1, disp.setServer ptr { server with randSeed := next.2 })

end SvrDisp

end Spp
