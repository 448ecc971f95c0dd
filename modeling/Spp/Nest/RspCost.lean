import Spp.Nest.CommuHead
import Spp.Nest.WeightSchedule

/-!
# The cost of a response

`TNetCommuServer::sendto` stamps a request with the time, and `TCommuSvrDisp::DoRecvFinished` takes
the time since the stamp as the cost of the response.  The milliseconds of the stamp are a sum of
32-bit numbers, which wraps, and the difference is cut to 32 bits again.
-/

namespace Spp

/-- `CMsgStat` -/
structure CMsgStat where
  lstTime : UInt64
  totalReq : UInt64
  totalRsp : UInt64
  totalCost : UInt64
  maxCost : UInt32
  minCost : UInt32

namespace CMsgStat

/-- `Reset` -/
def reset (time : UInt64) : CMsgStat := ⟨time, 0, 0, 0, 0, 0⟩

/-- `ReportRsp` -/
def reportRsp (stat : CMsgStat) (cost : UInt32) : CMsgStat :=
  { stat with
    totalRsp := stat.totalRsp + 1
    totalCost := stat.totalCost + cost.toUInt64
    maxCost := if cost > stat.maxCost then cost else stat.maxCost
    minCost := if stat.minCost = 0 ∨ cost < stat.minCost then cost else stat.minCost }

theorem reportRsp_inj {stat : CMsgStat} {cost other : UInt32} :
    stat.reportRsp cost = stat.reportRsp other ↔ cost = other := by
  refine ⟨fun same => ?_, fun same => same ▸ rfl⟩
  have total_eq : stat.totalCost + cost.toUInt64 = stat.totalCost + other.toUInt64 :=
    congrArg totalCost same
  exact UInt32.toUInt64_inj.1 ((UInt64.add_right_inj _).1 total_eq)

theorem reportRsp_ne (stat : CMsgStat) (cost : UInt32) : stat.reportRsp cost ≠ stat := by
  intro same
  have count_eq : stat.totalRsp + 1 = stat.totalRsp := congrArg totalRsp same
  exact absurd (UInt64.add_eq_left.1 count_eq) (by decide)

end CMsgStat

/-- `response_report` -/
def CDynamicCtrl.responseReport (ctrl : CDynamicCtrl) (delay : UInt32) : CDynamicCtrl :=
  { ctrl with
    rspCount := u32 (ctrl.rspCount + 1)
    costTotal := u64 (ctrl.costTotal + delay.toNat) }

/-- `time_start` of `DoRecvFinished`; the sum has 32 bits. -/
def timeStart (headInfo : TNetCommuHead) : UInt64 :=
  (headInfo.rcvSec * 1000 + headInfo.rcvUsec / 1000).toUInt64

/-- The cost of a message. -/
def msgCost (headInfo : TNetCommuHead) (timeNow : UInt64) : UInt64 :=
  if timeNow > timeStart headInfo then timeNow - timeStart headInfo else 0

/-- `TCommuSvrDisp` with what counts the responses. -/
structure SvrStat (χ σ : Type) where
  disp : SvrDisp χ σ
  stat : CMsgStat
  ctrl : σ → CDynamicCtrl

namespace SvrStat

variable {χ σ : Type} [DecidableEq χ] [DecidableEq σ]

/-- The cost is reported. -/
def report (state : SvrStat χ σ) (conn : χ) (channel : ChannelObject σ) (cost : UInt32) :
    SvrStat χ σ :=
  let stat := state.stat.reportRsp cost
  match channel.cookie with
  | none => { state with stat := stat }
  | some commuSvr =>
      { disp := state.disp.setChannel conn
          (SvrDisp.incWeight (state.disp.server commuSvr).incStep channel)
        stat := stat
        ctrl := Function.update state.ctrl commuSvr
          ((state.ctrl commuSvr).responseReport cost) }

/-- `DoRecvFinished` -/
def doRecvFinished (state : SvrStat χ σ) (conn : χ) (headInfo : TNetCommuHead)
    (timeNow : UInt64) : Option (SvrStat χ σ) := do
  let channel ← state.disp.channel conn
  if headInfo.rcvSec = 0 ∧ headInfo.rcvUsec = 0 then
    return state
  else
    return state.report conn channel (msgCost headInfo timeNow).toUInt32

variable {state : SvrStat χ σ} {channel : ChannelObject σ}

theorem report_stat (state : SvrStat χ σ) (conn : χ) (channel : ChannelObject σ) (cost : UInt32) :
    (state.report conn channel cost).stat = state.stat.reportRsp cost := by
  unfold report
  cases channel.cookie <;> rfl

theorem report_inj {conn : χ} {cost other : UInt32} :
    state.report conn channel cost = state.report conn channel other ↔ cost = other := by
  refine ⟨fun same => ?_, fun same => same ▸ rfl⟩
  have stat_eq := congrArg stat same
  rw [report_stat, report_stat] at stat_eq
  exact CMsgStat.reportRsp_inj.1 stat_eq

theorem report_ne (state : SvrStat χ σ) (conn : χ) (channel : ChannelObject σ) (cost : UInt32) :
    state.report conn channel cost ≠ state := by
  intro same
  have stat_eq := congrArg stat same
  rw [report_stat] at stat_eq
  exact state.stat.reportRsp_ne cost stat_eq

theorem doRecvFinished_eq_report_iff {conn : χ} (found : state.disp.channel conn = some channel)
    (headInfo : TNetCommuHead) (timeNow : UInt64) (cost : UInt32) :
    state.doRecvFinished conn headInfo timeNow = some (state.report conn channel cost) ↔
      ¬(headInfo.rcvSec = 0 ∧ headInfo.rcvUsec = 0) ∧
        (msgCost headInfo timeNow).toUInt32 = cost := by
  rw [doRecvFinished, found, Option.bind_eq_bind, Option.bind_some]
  split
  · rename_i unstamped
    refine ⟨fun same => ?_, fun right => absurd unstamped right.1⟩
    exact absurd (Option.some.inj same).symm (state.report_ne conn channel cost)
  · rename_i stamped
    refine ⟨fun same => ⟨stamped, report_inj.1 (Option.some.inj same)⟩, fun right => ?_⟩
    exact congrArg some (report_inj.2 right.2)

end SvrStat

/-- A time stamp in milliseconds. -/
def stampMs (sec usec : UInt32) : Nat := sec.toNat * 1000 + usec.toNat / 1000

/-- The milliseconds since a stamp, at most the greatest 32-bit number. -/
def latency (sec usec : UInt32) (timeNow : UInt64) : Nat :=
  min (timeNow.toNat - stampMs sec usec) 4294967295

theorem timeStart_toNat (headInfo : TNetCommuHead) :
    (timeStart headInfo).toNat = stampMs headInfo.rcvSec headInfo.rcvUsec % 4294967296 := by
  have thousand : (1000 : UInt32).toNat = 1000 := rfl
  rw [timeStart, UInt32.toNat_toUInt64, UInt32.toNat_add, UInt32.toNat_mul, UInt32.toNat_div,
    thousand, stampMs]
  omega

theorem msgCost_toNat (headInfo : TNetCommuHead) (timeNow : UInt64) :
    (msgCost headInfo timeNow).toUInt32.toNat =
      (timeNow.toNat - stampMs headInfo.rcvSec headInfo.rcvUsec % 4294967296) % 4294967296 := by
  have start_eq := timeStart_toNat headInfo
  rw [UInt64.toNat_toUInt32, msgCost]
  split
  · rename_i after
    rw [UInt64.toNat_sub_of_le _ _ (UInt64.le_of_lt after), start_eq]
  · rename_i before
    have before := Nat.le_of_not_lt (mt UInt64.lt_iff_toNat_lt.2 before)
    rw [start_eq] at before
    rw [Nat.sub_eq_zero_of_le before]
    rfl

/-- The clocks at which the cost of a stamped request is right.  After the stamp the difference has
32 bits, or its low bits are all one; before the stamp the clock is not after the wrapped stamp
either, or it has stepped back by a multiple of `2 ^ 32`. -/
def Accountable (sec usec : UInt32) (timeNow : UInt64) : Prop :=
  ¬(sec = 0 ∧ usec = 0) ∧
    if stampMs sec usec ≤ timeNow.toNat then
      timeNow.toNat - stampMs sec usec < 4294967296 ∨
        (timeNow.toNat - stampMs sec usec) % 4294967296 = 4294967295
    else
      timeNow.toNat ≤ stampMs sec usec % 4294967296 ∨
        (stampMs sec usec - timeNow.toNat) % 4294967296 = 0

theorem cost_eq_latency_iff (stamp now : Nat) :
    (now - stamp % 4294967296) % 4294967296 = min (now - stamp) 4294967295 ↔
      if stamp ≤ now then
        now - stamp < 4294967296 ∨ (now - stamp) % 4294967296 = 4294967295
      else
        now ≤ stamp % 4294967296 ∨ (stamp - now) % 4294967296 = 0 := by
  split <;> omega

namespace SvrStat

variable {χ σ : Type} [DecidableEq χ] [DecidableEq σ]

/-- The response to a request with the stamp of the request is counted with the latency if and only
if the clock is accountable. -/
theorem doRecvFinished_latency_iff {state : SvrStat χ σ} {conn : χ} {channel : ChannelObject σ}
    (found : state.disp.channel conn = some channel) (flow groupid sec usec : UInt32)
    (body : List UInt8) {response : TNetCommuHead}
    (sec_eq : response.rcvSec = (NestSent.sendto flow groupid sec usec body).head.rcvSec)
    (usec_eq : response.rcvUsec = (NestSent.sendto flow groupid sec usec body).head.rcvUsec)
    (timeNow : UInt64) :
    state.doRecvFinished conn response timeNow =
        some (state.report conn channel (UInt32.ofNat (latency sec usec timeNow))) ↔
      Accountable sec usec timeNow := by
  have sec_eq : response.rcvSec = sec := sec_eq
  have usec_eq : response.rcvUsec = usec := usec_eq
  have clipped : latency sec usec timeNow < 4294967296 :=
    lt_of_le_of_lt (min_le_right ..) (by decide)
  have cost_iff : (msgCost response timeNow).toUInt32 = UInt32.ofNat (latency sec usec timeNow) ↔
      (timeNow.toNat - stampMs sec usec % 4294967296) % 4294967296 =
        latency sec usec timeNow := by
    rw [← UInt32.toNat_inj, msgCost_toNat, UInt32.toNat_ofNat_of_lt' clipped, sec_eq, usec_eq]
  rw [doRecvFinished_eq_report_iff found, cost_iff, latency, cost_eq_latency_iff, sec_eq, usec_eq,
    Accountable]

/-- One channel with its server. -/
def oneChannel : SvrStat Unit Unit where
  disp := { SvrDisp.start with channel := fun _ => some ⟨3, some (), 1000, 10000⟩ }
  stat := .reset 0
  ctrl := fun _ => ⟨0, 0, 0, 0⟩

/-- The header of a request of second 1700000000. -/
def stamped : TNetCommuHead := (NestSent.sendto 7 1 1700000000 0 []).head

theorem doRecvFinished_latency_later :
    oneChannel.doRecvFinished () stamped 1700000000020 =
      some (oneChannel.report () ⟨3, some (), 1000, 10000⟩ 20) := by
  have found : oneChannel.disp.channel () = some ⟨3, some (), 1000, 10000⟩ := rfl
  have latency_eq : latency 1700000000 0 1700000000020 = 20 := by decide
  have sec_eq : stamped.rcvSec = (NestSent.sendto 7 1 1700000000 0 []).head.rcvSec := rfl
  have counted := (doRecvFinished_latency_iff found 7 1 1700000000 0 [] sec_eq rfl
    1700000000020).2 ⟨by decide, by decide⟩
  rw [latency_eq] at counted
  exact counted

/-- The clock steps back by 5 ms, and the cost is almost 50 days. -/
theorem doRecvFinished_steppedBack :
    (oneChannel.doRecvFinished () stamped 1699999999995).map (fun state => state.stat.totalCost) =
        some 4294967291 ∧
      latency 1700000000 0 1699999999995 = 0 := by
  decide

end SvrStat

end Spp
