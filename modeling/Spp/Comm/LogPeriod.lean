import Spp.Comm.Stat
import Spp.Comm.TimeConvert
import Spp.Lib.Executions
import Spp.Lib.Printf

/-!
# Log files by day and by hour

Processes that log to one path and prefix (`comm/tbase/tlog.cpp`, `_MP_MODE`).  The name of a file
has the day, or the hour, for which it was opened.  Before each line `shift_file` compares the day
and the hour of the current time with those of the time at which the file was written last.  The
line is written after the lock is gone, and this sets the time of the file.

The steps of a call are one for the look at the clock, one for the check under the lock, one for the
renaming, one for opening the next file and one for the line, unless the hook refuses it.  Names are
without path and prefix.  A file that was renamed is not found by its name any more; a rotated file
that the cyclic types remove is not found by a name anyway.
-/

namespace Spp

/-! ## The log -/

/-- What `localtime_r_nl` gives for a time. -/
def logTm (time : Int) : Tm := calendarTime (time + 28800)

/-- The part of `log_file_name` that depends on the time; `hourly` for the types
`LOG_TYPE_HOURLY` and `LOG_TYPE_CYCLE_HOURLY`, else `LOG_TYPE_DAILY` and `LOG_TYPE_CYCLE_DAILY`. -/
def timestr (hourly : Bool) (time : Int) : CStr :=
  let tmm := logTm time
  (Printf.zeroPadded 4 (tmm.year + 1900) ++ Printf.zeroPadded 2 (tmm.mon + 1) ++
      Printf.zeroPadded 2 tmm.mday ++ Printf.zeroPadded 2 tmm.hour ++ Printf.zeroPadded 2 tmm.min ++
      Printf.zeroPadded 2 tmm.sec).take (if hourly then 10 else 8) ++ Printf.ascii ['.']

/-- `need_shift` -/
def needShift (hourly : Bool) (cur pre : Int) : Bool :=
  (logTm cur).yday ≠ (logTm pre).yday ∨ hourly ∧ (logTm cur).hour ≠ (logTm pre).hour

/-- A file that is open or has a name. -/
structure LogFile where
  name : CStr
  mtime : Int
  size : Nat

/-- Where a process is. -/
inductive LogPhase
  | idle
  | called (time : Int)
  /-- `need_shift` is true; it has the lock. -/
  | shifting (time : Int)
  | reopening (time : Int)
  /-- `shift_file` has returned; `kept` if the file is the one from before. -/
  | ready (time : Int) (kept : Bool)

/-- A process that logs. -/
structure LogProcess where
  phase : LogPhase
  filename : CStr
  fd : Option Nat

/-- All processes, and the files. -/
structure LogDir where
  process : Nat → LogProcess
  files : Nat → LogFile
  names : CStr → Option Nat
  locked : Nat → Bool
  next : Nat

/-- A step of a process that logs. -/
inductive LogEvent
  /-- `log_open`: it read the time `pre`, and the file is opened later. -/
  | logOpen (id : Nat) (pre now : Int) (opened : Bool)
  | call (id : Nat) (now : Int)
  | check (id : Nat)
  | rotate (id : Nat)
  | reopen (id : Nat) (now : Int) (opened : Bool)
  /-- The hook returns false, and no line is written. -/
  | refuse (id : Nat)
  | append (id : Nat) (now : Int) (bytes : Nat)

namespace LogDir

/-- No files. -/
def init : LogDir where
  process := fun _ => ⟨.idle, [], none⟩
  files := fun _ => ⟨[], 0, 0⟩
  names := fun _ => none
  locked := fun _ => false
  next := 0

/-- A process changes. -/
def set (dir : LogDir) (id : Nat) (process : LogProcess) : LogDir :=
  { dir with process := Function.update dir.process id process }

/-- `open_file` -/
def openFile (hourly : Bool) (dir : LogDir) (id : Nat) (pre now : Int) (opened : Bool)
    (phase : LogPhase) : LogDir :=
  let filename := timestr hourly pre
  if opened then
    match dir.names filename with
    | some inode => dir.set id ⟨phase, filename, some inode⟩
    | none =>
        { dir with
          files := Function.update dir.files dir.next ⟨filename, now, 0⟩
          names := Function.update dir.names filename (some dir.next)
          next := dir.next + 1 }.set id ⟨phase, filename, some dir.next⟩
  else dir.set id ⟨.idle, filename, none⟩

/-- `shift_file` up to the decision, after the time was read. -/
def check (hourly : Bool) (maxFileSize : Nat) (dir : LogDir) (id : Nat) (time : Int) : LogDir :=
  let process := dir.process id
  match process.fd with
  | none => dir.set id { process with phase := .reopening time }
  | some inode =>
      -- another process has the lock
      if dir.locked inode then dir
      else if dir.names process.filename ≠ some inode then
        dir.set id { process with phase := .reopening time, fd := none }
      else if needShift hourly time (dir.files inode).mtime ∨
          maxFileSize ≤ (dir.files inode).size then
        { dir with locked := Function.update dir.locked inode true }.set id
          { process with phase := .shifting time }
      else dir.set id { process with phase := .ready time true }

/-- The old file is moved away. -/
def rotate (dir : LogDir) (id : Nat) (time : Int) : LogDir :=
  let process := dir.process id
  { dir with
    names := Function.update dir.names process.filename none
    locked := fun inode => dir.locked inode && process.fd ≠ some inode }.set id
      { process with phase := .reopening time, fd := none }

/-- A line is written. -/
def append (dir : LogDir) (id : Nat) (now : Int) (bytes : Nat) : LogDir :=
  let process := dir.process id
  match process.fd with
  | none => dir.set id { process with phase := .idle }
  | some inode =>
      let file := dir.files inode
      { dir with
        files := Function.update dir.files inode
          { file with mtime := now, size := file.size + bytes } }.set id
            { process with phase := .idle }

/-- A step of a process that is at the place for it. -/
def step (hourly : Bool) (maxFileSize : Nat) (dir : LogDir) : LogEvent → LogDir
  | .logOpen id pre now opened =>
      match (dir.process id).phase with
      | .idle => dir.openFile hourly id pre now opened .idle
      | _ => dir
  | .call id now =>
      match (dir.process id).phase with
      | .idle => dir.set id { dir.process id with phase := .called now }
      | _ => dir
  | .check id =>
      match (dir.process id).phase with
      | .called time => dir.check hourly maxFileSize id time
      | _ => dir
  | .rotate id =>
      match (dir.process id).phase with
      | .shifting time => dir.rotate id time
      | _ => dir
  | .reopen id now opened =>
      match (dir.process id).phase with
      | .reopening time => dir.openFile hourly id time now opened (.ready time false)
      | _ => dir
  | .refuse id =>
      match (dir.process id).phase with
      | .ready _ _ => dir.set id { dir.process id with phase := .idle }
      | _ => dir
  | .append id now bytes =>
      match (dir.process id).phase with
      | .ready _ _ => dir.append id now bytes
      | _ => dir

/-! ## What is to hold -/

/-- The name of the open file. -/
def openName (dir : LogDir) (id : Nat) : Option CStr :=
  (dir.process id).fd.map fun inode => (dir.files inode).name

/-- A line is written to a file that was named for the day (the hour) of the time that its check
read. -/
def Right (hourly : Bool) (dir : LogDir) : LogEvent → Prop
  | .append id _ _ =>
      match (dir.process id).phase with
      | .ready time _ => dir.openName id = some (timestr hourly time)
      | _ => True
  | _ => True

/-- The same, only for a line whose check kept the file. -/
def KeptRight (hourly : Bool) (dir : LogDir) : LogEvent → Prop
  | .append id _ _ =>
      match (dir.process id).phase with
      | .ready time true => dir.openName id = some (timestr hourly time)
      | _ => True
  | _ => True

/-- Two times of one calendar day, or of one hour of it. -/
def SamePeriod (hourly : Bool) (time time' : Int) : Prop :=
  (time + 28800) / 86400 = (time' + 28800) / 86400 ∧
    (hourly = true → (logTm time).hour = (logTm time').hour)

/-- Files are created and lines are written in the day (the hour) of the time that was read, and a
file was written at most 364 days before or after the time of the next check. -/
def Timely (hourly : Bool) (dir : LogDir) : LogEvent → Prop
  | .logOpen _ pre now _ => SamePeriod hourly now pre
  | .check id =>
      match (dir.process id).phase, (dir.process id).fd with
      | .called time, some inode => (time - (dir.files inode).mtime).natAbs ≤ 364 * 86400
      | _, _ => True
  | .reopen id now _ =>
      match (dir.process id).phase with
      | .reopening time => SamePeriod hourly now time
      | _ => True
  | .append id now _ =>
      match (dir.process id).phase with
      | .ready time _ => SamePeriod hourly now time
      | _ => True
  | _ => True

instance (hourly : Bool) (time time' : Int) : Decidable (SamePeriod hourly time time') :=
  inferInstanceAs (Decidable (_ ∧ _))

instance (hourly : Bool) (dir : LogDir) (event : LogEvent) :
    Decidable (dir.Right hourly event) := by
  cases event <;> dsimp only [Right] <;> (try split) <;> infer_instance

instance (hourly : Bool) (dir : LogDir) (event : LogEvent) :
    Decidable (dir.Timely hourly event) := by
  cases event <;> dsimp only [Timely] <;> (try split) <;> infer_instance

end LogDir

/-! ## Times and names -/

section Times

variable {hourly : Bool} {time time' : Int}

theorem timestr_daily (time : Int) :
    timestr false time = (Printf.zeroPadded 4 ((logTm time).year + 1900) ++
      Printf.zeroPadded 2 ((logTm time).mon + 1) ++ Printf.zeroPadded 2 (logTm time).mday).take 8 ++
        Printf.ascii ['.'] := by
  have year_le := Printf.le_length_zeroPadded 4 ((logTm time).year + 1900)
  have mon_le := Printf.le_length_zeroPadded 2 ((logTm time).mon + 1)
  have mday_le := Printf.le_length_zeroPadded 2 (logTm time).mday
  simp only [timestr, Bool.false_eq_true, if_false]
  rw [List.take_append_of_le_length, List.take_append_of_le_length, List.take_append_of_le_length]
  all_goals
    simp only [List.length_append]
    omega

theorem timestr_hourly (time : Int) :
    timestr true time = (Printf.zeroPadded 4 ((logTm time).year + 1900) ++
      Printf.zeroPadded 2 ((logTm time).mon + 1) ++ Printf.zeroPadded 2 (logTm time).mday ++
        Printf.zeroPadded 2 (logTm time).hour).take 10 ++ Printf.ascii ['.'] := by
  have year_le := Printf.le_length_zeroPadded 4 ((logTm time).year + 1900)
  have mon_le := Printf.le_length_zeroPadded 2 ((logTm time).mon + 1)
  have mday_le := Printf.le_length_zeroPadded 2 (logTm time).mday
  have hour_le := Printf.le_length_zeroPadded 2 (logTm time).hour
  simp only [timestr, if_true]
  rw [List.take_append_of_le_length, List.take_append_of_le_length]
  all_goals
    simp only [List.length_append]
    omega

theorem timestr_eq_of_samePeriod (same : LogDir.SamePeriod hourly time time') :
    timestr hourly time = timestr hourly time' := by
  obtain ⟨day, hour⟩ := same
  have year_eq : (logTm time).year = (logTm time').year := by simp only [logTm, calendarTime, day]
  have mon_eq : (logTm time).mon = (logTm time').mon := by simp only [logTm, calendarTime, day]
  have mday_eq : (logTm time).mday = (logTm time').mday := by simp only [logTm, calendarTime, day]
  cases hourly with
  | false => rw [timestr_daily, timestr_daily, year_eq, mon_eq, mday_eq]
  | true => rw [timestr_hourly, timestr_hourly, year_eq, mon_eq, mday_eq, hour rfl]

/-- Two days of the same number in their years, less than 365 days apart, are one day. -/
theorem samePeriod_of_near (shift : needShift hourly time time' = false)
    (near : (time - time').natAbs ≤ 364 * 86400) : LogDir.SamePeriod hourly time time' := by
  simp only [needShift, decide_eq_false_iff_not, not_or, not_and, not_not] at shift
  obtain ⟨yday_eq, hour_eq⟩ := shift
  refine ⟨?_, hour_eq⟩
  have day := Calendar.dayCount_dateAfter ((time + 28800) / 86400)
  have day' := Calendar.dayCount_dateAfter ((time' + 28800) / 86400)
  simp only [logTm, calendarTime, Nat.cast_inj] at yday_eq
  rw [Calendar.Date.dayCount] at day day'
  rcases lt_trichotomy (Calendar.dateAfter ((time + 28800) / 86400)).year
    (Calendar.dateAfter ((time' + 28800) / 86400)).year with before | same | before
  · have apart := Calendar.yearStart_add_le before
    omega
  · rw [same] at day
    omega
  · have apart := Calendar.yearStart_add_le before
    omega

end Times

namespace LogDir

/-! ## The invariant -/

variable {hourly : Bool} {maxFileSize : Nat} {dir : LogDir} {timely : Prop}

/-- A file is found by the name under which it was created, and a process that opened a file after
its check has one of the right name.  In runs that are timely a process that kept its file has one,
too, since the time of a file is in the day (the hour) of its name. -/
structure Sound (hourly : Bool) (timely : Prop) (dir : LogDir) : Prop where
  named : ∀ name inode, dir.names name = some inode →
    inode < dir.next ∧ (dir.files inode).name = name
  opened : ∀ id inode, (dir.process id).fd = some inode → inode < dir.next
  ready : ∀ id time kept, (dir.process id).phase = .ready time kept → (kept = true → timely) →
    dir.openName id = some (timestr hourly time)
  period : timely → ∀ inode < dir.next,
    timestr hourly (dir.files inode).mtime = (dir.files inode).name

theorem init_sound : init.Sound hourly timely where
  named := by rintro _ _ ⟨⟩
  opened := by rintro _ _ ⟨⟩
  ready := by rintro _ _ _ ⟨⟩
  period _ _ lt := absurd lt (Nat.not_lt_zero _)

theorem set_self (id : Nat) (process : LogProcess) : (dir.set id process).process id = process :=
  Function.update_self ..

theorem set_of_ne {id other : Nat} (ne : other ≠ id) (process : LogProcess) :
    (dir.set id process).process other = dir.process other :=
  Function.update_of_ne ne ..

theorem Sound.set (sound : dir.Sound hourly timely) {id : Nat} {process : LogProcess}
    (opened : ∀ inode, process.fd = some inode → inode < dir.next)
    (ready : ∀ time kept, process.phase = .ready time kept → (kept = true → timely) →
      (process.fd.map fun inode => (dir.files inode).name) = some (timestr hourly time)) :
    (dir.set id process).Sound hourly timely where
  named := sound.named
  opened other inode found := by
    obtain rfl | ne := eq_or_ne other id
    · rw [set_self] at found
      exact opened inode found
    · rw [set_of_ne ne] at found
      exact sound.opened other inode found
  ready other time kept at_phase allowed := by
    rw [openName]
    obtain rfl | ne := eq_or_ne other id
    · rw [set_self] at at_phase ⊢
      exact ready time kept at_phase allowed
    · rw [set_of_ne ne] at at_phase ⊢
      exact sound.ready other time kept at_phase allowed
  period := sound.period

/-- The files and their names change, but not the name under which a file was created. -/
theorem Sound.change (sound : dir.Sound hourly timely) {after : LogDir}
    (process_eq : after.process = dir.process) (next_le : dir.next ≤ after.next)
    (name_eq : ∀ inode < dir.next, (after.files inode).name = (dir.files inode).name)
    (named : ∀ name inode, after.names name = some inode →
      inode < after.next ∧ (after.files inode).name = name)
    (period : timely → ∀ inode < after.next,
      timestr hourly (after.files inode).mtime = (after.files inode).name) :
    after.Sound hourly timely where
  named := named
  opened id inode found := (sound.opened id inode (process_eq ▸ found)).trans_le next_le
  ready id time kept at_phase allowed := by
    rw [process_eq] at at_phase
    have open_name := sound.ready id time kept at_phase allowed
    obtain ⟨inode, found, name⟩ := Option.map_eq_some_iff.1 open_name
    refine Option.map_eq_some_iff.2 ⟨inode, process_eq ▸ found, ?_⟩
    rw [name_eq inode (sound.opened id inode found), name]
  period := period

theorem Sound.create (sound : dir.Sound hourly timely) {pre now : Int}
    (same : timely → SamePeriod hourly now pre) :
    Sound hourly timely { dir with
      files := Function.update dir.files dir.next ⟨timestr hourly pre, now, 0⟩
      names := Function.update dir.names (timestr hourly pre) (some dir.next)
      next := dir.next + 1 } := by
  refine sound.change rfl (Nat.le_succ _) (fun inode lt => ?_) (fun name inode found => ?_)
    fun is_timely inode lt => ?_
  · simp only [Function.update_of_ne lt.ne]
  · have named := sound.named name inode
    simp only [Function.update_apply] at found ⊢
    grind
  · have period := sound.period is_timely inode
    have same_name := timestr_eq_of_samePeriod (same is_timely)
    simp only [Function.update_apply]
    grind

theorem Sound.openFile (sound : dir.Sound hourly timely) (id : Nat) {pre now : Int} (opened : Bool)
    {phase : LogPhase} (same : timely → SamePeriod hourly now pre)
    (phase_time : ∀ time kept, phase = .ready time kept → time = pre) :
    (dir.openFile hourly id pre now opened phase).Sound hourly timely := by
  rw [LogDir.openFile]
  split
  · split
    case h_1 inode found =>
      obtain ⟨lt, name⟩ := sound.named _ inode found
      refine sound.set (by rintro _ ⟨⟩; exact lt) fun time kept at_phase _ => ?_
      rw [phase_time time kept at_phase, Option.map_some, name]
    case h_2 =>
      refine (sound.create same).set (by rintro _ ⟨⟩; exact Nat.lt_succ_self _)
        fun time kept at_phase _ => ?_
      simp only [Option.map_some, Function.update_self, phase_time time kept at_phase]
  · exact sound.set (by rintro _ ⟨⟩) (by rintro _ _ ⟨⟩)

theorem Sound.check (sound : dir.Sound hourly timely) (id : Nat) (time : Int)
    (near : timely → ∀ inode, (dir.process id).fd = some inode →
      (time - (dir.files inode).mtime).natAbs ≤ 364 * 86400) :
    (dir.check hourly maxFileSize id time).Sound hourly timely := by
  rw [LogDir.check]
  split
  · exact sound.set (sound.opened id) (by rintro _ _ ⟨⟩)
  case h_2 inode found =>
    have lt := sound.opened id inode found
    split
    · exact sound
    split
    · exact sound.set (by rintro _ ⟨⟩) (by rintro _ _ ⟨⟩)
    split
    · have locked : Sound hourly timely
          { dir with locked := Function.update dir.locked inode true } :=
        sound.change rfl le_rfl (fun _ _ => rfl) sound.named sound.period
      exact locked.set (sound.opened id) (by rintro _ _ ⟨⟩)
    case isFalse keep =>
      obtain ⟨shift, -⟩ := not_or.1 keep
      refine sound.set (sound.opened id) ?_
      rintro _ _ ⟨⟩ allowed
      have is_timely := allowed rfl
      have same := samePeriod_of_near (Bool.eq_false_of_not_eq_true shift)
        (near is_timely inode found)
      rw [found, Option.map_some, ← sound.period is_timely inode lt, timestr_eq_of_samePeriod same]

theorem Sound.rotate (sound : dir.Sound hourly timely) (id : Nat) (time : Int) :
    (dir.rotate id time).Sound hourly timely := by
  have renamed : Sound hourly timely { dir with
      names := Function.update dir.names (dir.process id).filename none
      locked := fun inode => dir.locked inode && (dir.process id).fd ≠ some inode } := by
    refine sound.change rfl le_rfl (fun _ _ => rfl) (fun name inode found => ?_) sound.period
    obtain rfl | ne := eq_or_ne name (dir.process id).filename
    · simp at found
    · simp only [Function.update_of_ne ne] at found
      exact sound.named name inode found
  exact renamed.set (by rintro _ ⟨⟩) (by rintro _ _ ⟨⟩)

theorem Sound.append (sound : dir.Sound hourly timely) (id : Nat) {now time : Int} (bytes : Nat)
    (same : timely → SamePeriod hourly now time)
    (open_name : timely → dir.openName id = some (timestr hourly time)) :
    (dir.append id now bytes).Sound hourly timely := by
  rw [LogDir.append]
  split
  · exact sound.set (sound.opened id) (by rintro _ _ ⟨⟩)
  case h_2 inode found =>
    let file := dir.files inode
    have written : Sound hourly timely { dir with
        files := Function.update dir.files inode
          { file with mtime := now, size := file.size + bytes } } := by
      have name_eq (other : Nat) : (Function.update dir.files inode
          { file with mtime := now, size := file.size + bytes } other).name =
            (dir.files other).name := by
        rw [Function.update_apply]
        grind
      refine sound.change rfl le_rfl (fun other _ => name_eq other) (fun name other known => ?_)
        fun is_timely other lt => ?_
      · exact (sound.named name other known).imp_right ((name_eq other).trans ·)
      · have name := open_name is_timely
        rw [openName, found, Option.map_some, Option.some.injEq] at name
        have period := sound.period is_timely other lt
        have same_name := timestr_eq_of_samePeriod (same is_timely)
        simp only [Function.update_apply]
        grind
    exact written.set (sound.opened id) (by rintro _ _ ⟨⟩)

/-- A step keeps the invariant, whatever the times are; for a timely one it may be that of timely
runs. -/
theorem Sound.step (sound : dir.Sound hourly timely) {event : LogEvent}
    (allowed : timely → dir.Timely hourly event) :
    (dir.step hourly maxFileSize event).Sound hourly timely := by
  cases event with
  | logOpen id pre now opened =>
      simp only [LogDir.step]
      split
      · exact sound.openFile id opened allowed (by rintro _ _ ⟨⟩)
      · exact sound
  | call id _ | refuse id =>
      simp only [LogDir.step]
      split
      · exact sound.set (sound.opened id) (by rintro _ _ ⟨⟩)
      · exact sound
  | check id =>
      simp only [LogDir.step]
      split
      case h_1 time at_phase =>
        refine sound.check id time fun is_timely inode found => ?_
        simpa only [Timely, at_phase, found] using allowed is_timely
      · exact sound
  | rotate id =>
      simp only [LogDir.step]
      split
      · exact sound.rotate id _
      · exact sound
  | reopen id now opened =>
      simp only [LogDir.step]
      split
      case h_1 time at_phase =>
        refine sound.openFile id opened (fun is_timely => ?_) (by rintro _ _ ⟨⟩; rfl)
        simpa only [Timely, at_phase] using allowed is_timely
      · exact sound
  | append id now bytes =>
      simp only [LogDir.step]
      split
      case h_1 time kept at_phase =>
        refine sound.append id bytes (fun is_timely => ?_) fun is_timely =>
          sound.ready id time kept at_phase fun _ => is_timely
        simpa only [Timely, at_phase] using allowed is_timely
      · exact sound

/-! ## The lines -/

theorem Sound.right_iff (sound : dir.Sound hourly False) (event : LogEvent) :
    dir.Right hourly event ↔ dir.KeptRight hourly event := by
  cases event with
  | append id now bytes =>
      simp only [Right, KeptRight]
      cases at_phase : (dir.process id).phase with
      | ready time kept =>
          cases kept with
          | false =>
              have right := sound.ready id time false at_phase Bool.false_ne_true
              exact iff_of_true right trivial
          | true => exact Iff.rfl
      | _ => exact Iff.rfl
  | _ => exact Iff.rfl

theorem Sound.right (sound : dir.Sound hourly True) (event : LogEvent) :
    dir.Right hourly event := by
  cases event with
  | append id now bytes =>
      simp only [Right]
      split
      case h_1 time kept at_phase => exact sound.ready id time kept at_phase fun _ => trivial
      · trivial
  | _ => trivial

/-- In every interleaving all lines are right exactly if those whose check kept the file are. -/
theorem along_right_iff_kept (hourly : Bool) (maxFileSize : Nat) (events : List LogEvent) :
    Executions.Along (step hourly maxFileSize) (Right hourly) init events ↔
      Executions.Along (step hourly maxFileSize) (KeptRight hourly) init events := by
  have run : Executions.Along (step hourly maxFileSize) (fun _ _ => True) init events :=
    Executions.along_of_forall (fun _ _ => trivial) _ _
  exact Executions.along_iff (fun _ event sound _ => Sound.right_iff sound event)
    (fun _ _ sound _ _ => Sound.step sound False.elim) init_sound run

/-- In every timely interleaving all lines are right. -/
theorem along_right (hourly : Bool) (maxFileSize : Nat) {events : List LogEvent}
    (timely : Executions.Along (step hourly maxFileSize) (Timely hourly) init events) :
    Executions.Along (step hourly maxFileSize) (Right hourly) init events := by
  have all : Executions.Along (step hourly maxFileSize) (fun _ _ => True) init events :=
    Executions.along_of_forall (fun _ _ => trivial) _ _
  refine (Executions.along_iff (fun _ event sound _ => ?_) (fun _ _ sound allowed _ => ?_)
    (init_sound : init.Sound hourly True) timely).2 all
  · exact iff_of_true (Sound.right sound event) trivial
  · exact Sound.step sound fun _ => allowed

/-- A line in the evening of one day and one in the next morning. -/
def twoDays : List LogEvent :=
  [.logOpen 0 0 0 true, .call 0 57000, .check 0, .append 0 57001 10, .call 0 57010, .check 0,
    .refuse 0,
    .call 0 57800, .check 0, .rotate 0, .reopen 0 57801 true, .append 0 57802 10]

/-- A line that is written late. -/
def lateLine : List LogEvent :=
  [.logOpen 0 0 0 true, .call 0 57000, .check 0, .append 0 57700 10,
    .call 0 57800, .check 0, .append 0 57802 10]

/-- The next line comes a year later. -/
def yearLater : List LogEvent :=
  [.logOpen 0 0 0 true, .call 0 31536000, .check 0, .append 0 31536001 10]

theorem twoDays_right :
    Executions.Along (step false 1000) (Right false) init twoDays := by
  apply along_right
  decide

/-- After a line that was written after midnight the next check keeps the file of the day before;
and a check keeps the file of the same day one year before. -/
theorem lateLine_wrong :
    ¬ Executions.Along (step false 1000) (Right false) init lateLine ∧
      ¬ Executions.Along (step false 1000) (Right false) init yearLater := by
  decide +kernel

end LogDir

end Spp
