import Spp.Comm.Stat
import Spp.Lib.Executions
import Spp.Lib.MachineInt

/-!
# Reports, `CReport`

`comm/report/report_handle.cpp`: the setters write to one static record, `do_report` pushes it to
the loop queue and clears the bitmap and the cost.  `set_cmd` copies the characters of the command
without a terminator, and only the constructor clears the field, so behind a command there is the
rest of a longer one that was set before it.

Fields of the record that no function of the class writes are left out.
-/

namespace Spp

/-- A string, without its terminator. -/
structure CommandText where
  chars : CStr
  no_nul : 0 ∉ chars

/-- The fields that a report can have. -/
inductive ReportField
  | cmd
  | result
  | localAddr
  | remoteAddr
  | cost
  | usrDef
  deriving DecidableEq

/-- The bit of a field. -/
def ReportField.bit : ReportField → BitVec 32
  | .cmd => 0x1
  | .result => 0x2
  | .localAddr => 0x4
  | .remoteAddr => 0x8
  | .cost => 0x10
  | .usrDef => 0x20

/-- The record that is reported. -/
structure ReportHandle where
  bitmaps : BitVec 32
  cmd : Fin 32 → BitVec 8
  result : BitVec 32
  /-- `remote_ipv4` and `remote_port` -/
  remoteAddr : BitVec 32 × BitVec 32
  /-- `local_ipv4` and `local_port` -/
  localAddr : BitVec 32 × BitVec 32
  msgCost : BitVec 32
  usrDefine : BitVec 32

/-- A call; `opened` is whether `init` opens the queue and `put` whether `sq_put` succeeds. -/
inductive ReportCall
  | create
  | setCmd (cmd : CommandText)
  | setResult (result : BitVec 32)
  | setLocalAddr (ip port : BitVec 32)
  | setRemoteAddr (ip port : BitVec 32)
  | setMsgCost (cost : BitVec 32)
  | setUsrDefine (cookie : BitVec 32)
  | doReport (opened put : Bool)

namespace ReportHandle

/-- A field is marked. -/
def Has (handle : ReportHandle) (field : ReportField) : Prop := handle.bitmaps &&& field.bit ≠ 0

instance (handle : ReportHandle) (field : ReportField) : Decidable (handle.Has field) :=
  inferInstanceAs (Decidable (_ ≠ _))

/-- A field is marked from now on. -/
def mark (handle : ReportHandle) (field : ReportField) : ReportHandle :=
  { handle with bitmaps := handle.bitmaps ||| field.bit }

/-- A new record. -/
def create (handle : ReportHandle) : ReportHandle :=
  { handle with bitmaps := 0, msgCost := 0, cmd := fun _ => 0 }

/-- The number of characters that `set_cmd` copies, from the length as an `int`. -/
def copied (cmd : CommandText) : Int := min (i32 cmd.chars.length) 31

/-- `set_cmd`; with a negative number `strncpy` writes beyond the record. -/
def setCmd (handle : ReportHandle) (cmd : CommandText) : Option ReportHandle :=
  if copied cmd < 0 then none
  else some { handle.mark .cmd with
    cmd := fun place =>
      if (place.val : Int) < copied cmd then cmd.chars.getD place 0 else handle.cmd place }

end ReportHandle

/-- `CLoopQueue::push`, for a queue that is open or not. -/
def loopQueuePush (queue put : Bool) : Int := if queue then if put then 0 else -1 else -2

/-- The record and the queue.  The last two fields say what was called: the commands since the
constructor, the last one first, and the fields that were set since the last report was pushed. -/
structure CReport where
  handle : ReportHandle
  /-- `_queue` of the loop queue is not `NULL`. -/
  queue : Bool
  commands : List CommandText
  since : List ReportField

namespace CReport

/-- Before the first call. -/
def init : CReport := ⟨⟨0, fun _ => 0, 0, (0, 0), (0, 0), 0, 0⟩, false, [], []⟩

/-- A field is written. -/
def set (report : CReport) (field : ReportField) (write : ReportHandle → ReportHandle) : CReport :=
  { report with handle := write (report.handle.mark field), since := field :: report.since }

/-- What `do_report` gets from the queue, which it opens if it is not open. -/
def pushTwice (report : CReport) (opened put : Bool) : Int × Bool :=
  if loopQueuePush report.queue put = -2 then (loopQueuePush opened put, opened)
  else (loopQueuePush report.queue put, report.queue)

/-- The record that a report sends. -/
def pushed (report : CReport) (opened put : Bool) : Option ReportHandle :=
  if report.handle.Has .cmd ∧ report.handle.Has .result ∧ (report.pushTwice opened put).1 = 0 then
    some report.handle
  else none

/-- `do_report`: what it returns, and the record after it. -/
def doReport (report : CReport) (opened put : Bool) : Int × CReport :=
  if report.handle.Has .cmd ∧ report.handle.Has .result then
    let result := report.pushTwice opened put
    (result.1, { report with
      handle := { report.handle with bitmaps := 0, msgCost := 0 }
      queue := result.2
      since := if result.1 = 0 then [] else report.since })
  else (-5, report)

/-- A call, unless it writes beyond the record. -/
def perform (report : CReport) : ReportCall → Option CReport
  | .create => some { report with handle := report.handle.create, commands := [] }
  | .setCmd cmd =>
      (report.handle.setCmd cmd).map fun handle =>
        { report with
          handle, commands := cmd :: report.commands, since := .cmd :: report.since }
  | .setResult result => some (report.set .result ({ · with result }))
  | .setLocalAddr ip port => some (report.set .localAddr ({ · with localAddr := (ip, port) }))
  | .setRemoteAddr ip port => some (report.set .remoteAddr ({ · with remoteAddr := (ip, port) }))
  | .setMsgCost cost => some (report.set .cost ({ · with msgCost := cost }))
  | .setUsrDefine cookie => some (report.set .usrDef ({ · with usrDefine := cookie }))
  | .doReport opened put => some (report.doReport opened put).2

end CReport

/-- The field has the command, cut to 31 characters, and a terminator. -/
def ReportHandle.Carries (handle : ReportHandle) (cmd : CommandText) : Prop :=
  let length := min cmd.chars.length 31
  ∀ place : Fin 32, (place.val < length → handle.cmd place = cmd.chars.getD place 0) ∧
    (place.val = length → handle.cmd place = 0)

/-! ## The record -/

namespace ReportHandle

variable {handle : ReportHandle} {field other : ReportField} {cmd : CommandText}

theorem has_of_mark (has : (handle.mark field).Has other) : handle.Has other ∨ other = field := by
  rw [or_iff_not_imp_right]
  intro ne unset
  refine has ?_
  have disjoint : field.bit &&& other.bit = 0 := by
    cases field <;> cases other <;> first | exact absurd rfl ne | rfl
  rw [mark, BitVec.and_comm, BitVec.and_or_distrib_left, BitVec.and_comm, unset, BitVec.and_comm,
    disjoint]
  rfl

theorem not_has_of_cleared (cleared : handle.bitmaps = 0) (field : ReportField) :
    ¬ handle.Has field := by
  simp [Has, cleared]

theorem copied_of_short (short : cmd.chars.length < 2147483648) :
    copied cmd = (min cmd.chars.length 31 : Nat) := by
  rw [copied, i32_of_lt short]
  omega

end ReportHandle

namespace CReport

open ReportHandle

variable {report after : CReport}

/-- The character of the last command that was long enough for the place. -/
def charAt (place : Fin 32) : (commands : List CommandText) → BitVec 8
  | [] => 0
  | cmd :: earlier =>
      if (place.val : Int) < copied cmd then cmd.chars.getD place 0 else charAt place earlier

/-- The field has these characters, and a bit is set for a field that was set. -/
structure Sound (report : CReport) : Prop where
  cmd : ∀ place, report.handle.cmd place = charAt place report.commands
  known : report.handle.Has .cmd → report.commands ≠ []
  since : ∀ field, report.handle.Has field → field ∈ report.since

theorem init_sound : init.Sound where
  cmd _ := rfl
  known has := absurd has (not_has_of_cleared rfl _)
  since field has := absurd has (not_has_of_cleared rfl field)

theorem Sound.set (sound : report.Sound) {field : ReportField} (ne : field ≠ .cmd)
    {write : ReportHandle → ReportHandle} (cmd_eq : ∀ handle, (write handle).cmd = handle.cmd)
    (bitmaps_eq : ∀ handle, (write handle).bitmaps = handle.bitmaps) :
    (report.set field write).Sound := by
  have has_old : ∀ other, (report.set field write).handle.Has other →
      report.handle.Has other ∨ other = field := by
    intro other has
    rw [Has, CReport.set, bitmaps_eq] at has
    exact has_of_mark has
  refine ⟨fun place => ?_, fun has => ?_, fun other has => ?_⟩
  · rw [CReport.set, cmd_eq]
    exact sound.cmd place
  · exact sound.known ((has_old .cmd has).resolve_right ne.symm)
  · rcases has_old other has with old | rfl
    · exact List.mem_cons_of_mem _ (sound.since other old)
    · exact List.mem_cons_self

theorem Sound.setCmd (sound : report.Sound) {cmd : CommandText} {handle : ReportHandle}
    (returned : report.handle.setCmd cmd = some handle) :
    Sound { report with
      handle, commands := cmd :: report.commands, since := .cmd :: report.since } := by
  rw [ReportHandle.setCmd, Option.ite_none_left_eq_some] at returned
  obtain rfl := Option.some.inj returned.2
  refine ⟨fun place => ?_, fun _ => List.cons_ne_nil _ _, fun other has => ?_⟩
  · dsimp only
    rw [charAt, sound.cmd]
  · have marked : (report.handle.mark .cmd).Has other := by
      rw [Has] at has ⊢
      exact has
    rcases has_of_mark marked with old | rfl
    · exact List.mem_cons_of_mem _ (sound.since other old)
    · exact List.mem_cons_self

theorem Sound.doReport (sound : report.Sound) (opened put : Bool) :
    (report.doReport opened put).2.Sound := by
  rw [CReport.doReport]
  split
  · exact ⟨sound.cmd, fun has => absurd has (not_has_of_cleared rfl _),
      fun field has => absurd has (not_has_of_cleared rfl _)⟩
  · exact sound

theorem Sound.perform (sound : report.Sound) {call : ReportCall}
    (performed : report.perform call = some after) : after.Sound := by
  cases call with
  | create =>
      cases performed
      exact ⟨fun _ => rfl, fun has => absurd has (not_has_of_cleared rfl _),
        fun field has => absurd has (not_has_of_cleared rfl _)⟩
  | setCmd cmd =>
      rw [CReport.perform, Option.map_eq_some_iff] at performed
      obtain ⟨handle, returned, rfl⟩ := performed
      exact sound.setCmd returned
  | doReport opened put =>
      cases performed
      exact sound.doReport opened put
  | _ =>
      cases performed
      exact sound.set (by decide) (fun _ => rfl) fun _ => rfl

theorem execute_sound {calls : List ReportCall}
    (ran : Executions.execute perform init calls = some report) : report.Sound := by
  have run := Executions.execute_run ran
  clear ran
  induction run with
  | refl => exact init_sound
  | tail _ last induction =>
      obtain ⟨call, performed⟩ := last
      exact induction.perform performed

/-- At a place there is no character exactly if no command was longer. -/
theorem charAt_eq_zero_iff {place : Fin 32} {commands : List CommandText}
    (short : ∀ cmd ∈ commands, cmd.chars.length < 2147483648) :
    charAt place commands = 0 ↔ ∀ cmd ∈ commands, min cmd.chars.length 31 ≤ place := by
  induction commands with
  | nil => simp [charAt]
  | cons cmd earlier induction =>
      obtain ⟨cmd_short, earlier_short⟩ := List.forall_mem_cons.1 short
      rw [charAt, copied_of_short cmd_short, List.forall_mem_cons]
      split
      case isTrue inside =>
        have lt : place.val < cmd.chars.length := by omega
        refine iff_of_false (fun zero => cmd.no_nul ?_) fun le => by omega
        rw [List.getD, List.getElem?_eq_getElem lt, Option.getD_some] at zero
        exact zero ▸ List.getElem_mem lt
      case isFalse outside =>
        rw [induction earlier_short, and_iff_right]
        omega

theorem Sound.carries_iff (sound : report.Sound) {last : CommandText}
    {earlier : List CommandText} (commands_eq : report.commands = last :: earlier)
    (short : ∀ cmd ∈ report.commands, cmd.chars.length < 2147483648) :
    report.handle.Carries last ↔ ∀ cmd ∈ earlier, min cmd.chars.length 31 ≤ last.chars.length := by
  have last_short := short last (by simp [commands_eq])
  have earlier_short : ∀ cmd ∈ earlier, cmd.chars.length < 2147483648 := fun cmd member =>
    short cmd (by simp [commands_eq, member])
  have at_place : ∀ place : Fin 32, report.handle.cmd place =
      if place.val < min last.chars.length 31 then last.chars.getD place 0
      else charAt place earlier := by
    intro place
    rw [sound.cmd, commands_eq, charAt, copied_of_short last_short]
    simp only [Nat.cast_lt]
  constructor
  · intro carries cmd member
    let place : Fin 32 := ⟨min last.chars.length 31, by omega⟩
    have zero := (carries place).2 rfl
    rw [at_place, if_neg (lt_irrefl _), charAt_eq_zero_iff earlier_short] at zero
    exact (zero cmd member).trans (min_le_left _ _)
  · intro longest place
    refine ⟨fun inside => ?_, fun at_end => ?_⟩
    · rw [at_place, if_pos inside]
    · rw [at_place, if_neg at_end.not_lt, charAt_eq_zero_iff earlier_short]
      intro cmd member
      have le := longest cmd member
      omega

/-- A record that is pushed has the last command exactly if no command since the constructor was
longer, and its bits are those of fields that were set since the report before. -/
theorem pushed_carries_iff {calls : List ReportCall}
    (ran : Executions.execute perform init calls = some report)
    (short : ∀ cmd ∈ report.commands, cmd.chars.length < 2147483648) {opened put : Bool}
    {record : ReportHandle} (pushes : report.pushed opened put = some record) :
    (∃ last earlier, report.commands = last :: earlier ∧ (record.Carries last ↔
      ∀ cmd ∈ earlier, min cmd.chars.length 31 ≤ last.chars.length)) ∧
    ∀ field, record.Has field → field ∈ report.since := by
  have sound := execute_sound ran
  rw [pushed, Option.ite_none_right_eq_some] at pushes
  obtain ⟨⟨has_cmd, -⟩, eq⟩ := pushes
  obtain rfl := Option.some.inj eq
  obtain ⟨last, earlier, commands_eq⟩ := List.exists_cons_of_ne_nil (sound.known has_cmd)
  exact ⟨⟨last, earlier, commands_eq, sound.carries_iff commands_eq short⟩, sound.since⟩

/-- Two reports; the second one is still to be pushed. -/
def twoReports (first second : CommandText) : List ReportCall :=
  [.setCmd first, .setResult 0, .doReport true true, .setCmd second, .setResult 0]

/-- A command of two letters. -/
def commandAb : CommandText := ⟨[97, 98], by decide⟩

/-- A command of one letter. -/
def commandC : CommandText := ⟨[99], by decide⟩

theorem twoReports_isSome :
    (Executions.execute perform init (twoReports commandC commandAb)).isSome = true ∧
      (Executions.execute perform init (twoReports commandAb commandC)).isSome = true := by
  decide

/-- After the shorter command the longer one is carried. -/
theorem pushed_carries_ab : ∃ report record,
    Executions.execute perform init (twoReports commandC commandAb) = some report ∧
      report.pushed true true = some record ∧ record.Carries commandAb := by
  let report := (Executions.execute perform init (twoReports commandC commandAb)).get
    twoReports_isSome.1
  have commands_eq : report.commands = [commandAb, commandC] := rfl
  have pushes : report.pushed true true = some report.handle := if_pos (by decide)
  have ran : Executions.execute perform init (twoReports commandC commandAb) = some report :=
    (Option.some_get twoReports_isSome.1).symm
  have short : ∀ cmd ∈ report.commands, cmd.chars.length < 2147483648 := by
    simp [commands_eq, commandAb, commandC]
  obtain ⟨⟨last, earlier, listed, carries_iff⟩, -⟩ := pushed_carries_iff ran short pushes
  obtain ⟨rfl, rfl⟩ := List.cons.inj (commands_eq.symm.trans listed)
  exact ⟨report, report.handle, ran, pushes, carries_iff.2 (by simp [commandAb, commandC])⟩

/-- The report of the command `c` has the second character of the command before it. -/
theorem pushed_earlier_char : ∃ report record,
    Executions.execute perform init (twoReports commandAb commandC) = some report ∧
      report.pushed true true = some record ∧ record.cmd 0 = 99 ∧ record.cmd 1 = 98 ∧
      ¬ record.Carries commandC := by
  refine ⟨_, _, (Option.some_get twoReports_isSome.2).symm, if_pos ?_, ?_, ?_, fun carries => ?_⟩
  · decide
  · decide
  · decide
  · exact absurd ((carries 1).2 rfl) (by decide)

end CReport

end Spp
