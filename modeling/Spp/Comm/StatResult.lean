import Spp.Comm.StatValues
import Spp.Comm.TimeConvert
import Spp.Lib.Printf

/-!
# The report of the statistics

`CTStat::result` writes a line for each object into the buffer of its caller.  Every `snprintf` of
it gets `size - len - 1` bytes for its text, where `len` is the length of all texts before, also of
those that were cut off.  As soon as `len` is at least `size` the difference is negative, and it
becomes a large `size_t`.

The policy puts the values of an object into the array `values` of `do_result`, which has ten
places; `init_statobj` accepts more values.

A write outside of the buffer or of the array is a failure (`none`).
-/

namespace Spp

open Printf

/-! ## Texts -/

/-- `STAT_MAX_VALSIZE` -/
def statMaxValsize : Nat := 10

/-- `__tag__` -/
def StatPolicy.tag (type : Nat) : CStr :=
  ascii (if type = 32 then ['S', 'e', 't']
    else if type = 4 then ['M', 'a', 'x']
    else if type = 8 then ['M', 'i', 'n']
    else if type = 2 then ['A', 'v', 'g']
    else if type = 16 then ['C', 'o', 'u', 'n', 't']
    else ['S', 'u', 'm'])

/-! ## `result` -/

/-- The buffer of the caller, and `*len`. -/
structure StatBuffer where
  bytes : List (BitVec 8)
  len : Nat

namespace StatBuffer

/-- `*len += snprintf(buffer + *len, size - (*len) - 1, ...)` for a text.  It writes what there is
room for, and a terminator. -/
def snprintf (size : Nat) (out : StatBuffer) (text : CStr) : Option StatBuffer :=
  let room := u64 ((size : Int) - out.len - 1)
  let written := if room = 0 then [] else text.take (room - 1) ++ [0]
  if written ≠ [] ∧ out.bytes.length < out.len + written.length then none
  else if 2147483648 ≤ out.len + text.length then none
  else some ⟨out.bytes.take out.len ++ written ++ out.bytes.drop (out.len + written.length),
    out.len + text.length⟩

/-- Texts one after the other. -/
def print (size : Nat) (texts : List CStr) (out : StatBuffer) : Option StatBuffer :=
  texts.foldlM (snprintf size) out

end StatBuffer

namespace CTStat

/-- The texts of `output_statpool`. -/
def poolTexts (stat : CTStat) (tid : Int) (tmm : Tm) : List CStr :=
  [ascii ['\n', 'T', 'S', 't', 'a', 't', '['] ++ padded 5 (decimal tid) ++ ascii [']', ','] ++
      zeroPadded 4 (tmm.year + 1900) ++ ascii ['-'] ++ zeroPadded 2 (tmm.mon + 1) ++ ascii ['-'] ++
      zeroPadded 2 tmm.mday ++ ascii [' '] ++ zeroPadded 2 tmm.hour ++ ascii [':'] ++
      zeroPadded 2 tmm.min ++ ascii [':'] ++ zeroPadded 2 tmm.sec ++
      ascii ['\n', 'U', 's', 'e', 'd', ' ', 'S', 't', 'a', 't', 'O', 'b', 'j', ' ', 'N', 'u', 'm',
        ':', ' '] ++ decimal stat.pool.statobjsUsed ++
      ascii ['\t', 'U', 's', 'e', 'd', ' ', 'S', 't', 'a', 't', 'V', 'a', 'l', ' ', 'N', 'u', 'm',
        ':', ' '] ++ decimal stat.pool.statvalsUsed ++ ascii ['\n'],
    padded 20 (ascii ['S', 't', 'a', 't', 'I', 'D']) ++ ascii ['|'] ++
      padded 8 (ascii ['T', 'y', 'p', 'e']) ++ ascii ['|'] ++
      padded 8 (ascii ['C', 'o', 'u', 'n', 't']) ++ ascii ['|'] ++
      padded 8 (ascii ['V', 'a', 'l', 'u', 'e', 's']) ++ ascii ['|'] ++
      padded 20 (ascii ['D', 'e', 's', 'c']) ++ ascii ['|', '\n']]

/-- `__result__` for an object: the count and the values. -/
def shown (stat : CTStat) (choice : Nat) : Int × List Int :=
  let obj := stat.pool.statobjs choice
  StatPolicy.result obj.type (stat.count choice)
    ((List.range obj.valSize.toNat).map fun idx : Nat => stat.statvals (obj.valOffset + idx))

/-- The texts of `output_statobj`; `desc` has `desc_` of the objects. -/
def objTexts (stat : CTStat) (desc : Nat → CStr) (choice : Nat) : List CStr :=
  let obj := stat.pool.statobjs choice
  let (count, values) := stat.shown choice
  (padded 20 obj.id ++ ascii ['|'] ++ padded 8 (StatPolicy.tag obj.type) ++ ascii ['|'] ++
      padded 8 (decimal count) ++ ascii ['|']) ::
    values.map (fun value => padded 8 (decimal value)) ++
    [ascii ['|'] ++ padded 20 (desc choice), ascii ['\r', '\n']]

/-- `do_result` -/
def doResult (stat : CTStat) (desc : Nat → CStr) (size : Nat) (out : StatBuffer) (choice : Nat) :
    Option StatBuffer :=
  -- `__result__` writes beyond `values`
  if statMaxValsize < (stat.shown choice).2.length then none
  else out.print size (stat.objTexts desc choice)

/-- `result`, called by a thread at some time, for a buffer of `size` bytes. -/
def result (stat : CTStat) (desc : Nat → CStr) (tid : Int) (tmm : Tm) (size : Nat)
    (buffer : List (BitVec 8)) : Option StatBuffer := do
  let out ← StatBuffer.print size (stat.poolTexts tid tmm) ⟨buffer, 0⟩
  let visited ← stat.pool.travel
  visited.foldlM (stat.doResult desc size) out

/-- The report stays in the buffer and in `values`, and its length is less than the size. -/
def Inside (stat : CTStat) (desc : Nat → CStr) (tid : Int) (tmm : Tm) (buffer : List (BitVec 8)) :
    Prop :=
  ∃ out, stat.result desc tid tmm buffer.length buffer = some out ∧ out.len < buffer.length

end CTStat

/-! ## How long the report is -/

namespace CTStat

/-- The length of the header: its fixed part, with the fields of the date and the other numbers. -/
def headerLength (stat : CTStat) (tid : Int) (tmm : Tm) : Nat :=
  123 + max 5 (digits tid) + max 4 (digits (tmm.year + 1900)) + max 2 (digits (tmm.mon + 1)) +
    max 2 (digits tmm.mday) + max 2 (digits tmm.hour) + max 2 (digits tmm.min) +
    max 2 (digits tmm.sec) + digits stat.pool.statobjsUsed + digits stat.pool.statvalsUsed

/-- `Avg` shows nothing before the first value. -/
def Silent (stat : CTStat) (choice : Nat) : Prop :=
  (stat.pool.statobjs choice).type = 2 ∧ stat.count choice ≤ 0

instance (stat : CTStat) (choice : Nat) : Decidable (stat.Silent choice) :=
  inferInstanceAs (Decidable (_ ∧ _))

/-- The number in a column: a cell, or its quotient by the count for `Avg`. -/
def column (stat : CTStat) (choice idx : Nat) : Int :=
  let obj := stat.pool.statobjs choice
  let cell := stat.statvals (obj.valOffset + idx)
  if obj.type = 2 then cell.tdiv (stat.count choice) else cell

/-- The length of the line of an object: its fixed part, with the id, the description, the count and
the columns. -/
def lineLength (stat : CTStat) (desc : Nat → CStr) (choice : Nat) : Nat :=
  let obj := stat.pool.statobjs choice
  14 + max 20 obj.id.length + max 20 (desc choice).length +
    if stat.Silent choice then 8
    else max 8 (digits (stat.count choice)) +
      ((List.range obj.valSize.toNat).map fun idx => max 8 (digits (stat.column choice idx))).sum

/-- There is room for the values of an object. -/
def Roomy (stat : CTStat) (choice : Nat) : Prop :=
  stat.Silent choice ∨ (stat.pool.statobjs choice).valSize ≤ 10

instance (stat : CTStat) (choice : Nat) : Decidable (stat.Roomy choice) :=
  inferInstanceAs (Decidable (_ ∨ _))

variable {stat : CTStat} {desc : Nat → CStr} {tid : Int} {tmm : Tm} {choice : Nat}

theorem length_poolTexts : (stat.poolTexts tid tmm).flatten.length = stat.headerLength tid tmm := by
  simp only [poolTexts, headerLength, List.flatten_cons, List.flatten_nil, List.length_append,
    length_ascii, length_padded, length_zeroPadded, length_decimal, List.length_cons,
    List.length_nil]
  omega

theorem length_tag_le (type : Nat) : (StatPolicy.tag type).length ≤ 8 := by
  rw [StatPolicy.tag, length_ascii]
  split_ifs <;> decide

theorem shown_of_silent (silent : stat.Silent choice) : stat.shown choice = (0, []) := by
  rw [shown, StatPolicy.result]
  simp [silent.1, not_lt.2 silent.2]

theorem shown_of_not (loud : ¬ stat.Silent choice) :
    stat.shown choice = (stat.count choice,
      (List.range (stat.pool.statobjs choice).valSize.toNat).map (stat.column choice)) := by
  unfold Silent at loud
  rw [shown, StatPolicy.result]
  by_cases avg : (stat.pool.statobjs choice).type = 2
  · rw [if_pos avg, if_pos (by omega), List.map_map]
    refine congrArg _ (List.map_congr_left fun idx _ => ?_)
    rw [column, if_pos avg]
    rfl
  · rw [if_neg avg]
    refine congrArg _ (List.map_congr_left fun idx _ => ?_)
    rw [column, if_neg avg]

theorem length_objTexts :
    (stat.objTexts desc choice).flatten.length = stat.lineLength desc choice := by
  have tag_le := length_tag_le (stat.pool.statobjs choice).type
  by_cases silent : stat.Silent choice
  · have zero : digits 0 = 1 := by decide
    simp only [objTexts, lineLength, shown_of_silent silent, if_pos silent, List.map_nil,
      List.flatten_cons, List.flatten_nil, List.length_append, List.nil_append, length_ascii,
      length_padded, length_decimal, List.length_cons, List.length_nil, List.cons_append, zero]
    omega
  · simp only [objTexts, lineLength, shown_of_not silent, if_neg silent, List.map_map,
      List.flatten_cons, List.flatten_nil, List.flatten_append, List.length_append, length_ascii,
      length_padded, length_decimal, List.length_cons, List.length_nil, List.cons_append,
      List.length_flatten, Function.comp_def]
    omega

theorem roomy_iff : (stat.shown choice).2.length ≤ statMaxValsize ↔ stat.Roomy choice := by
  unfold Roomy statMaxValsize
  by_cases silent : stat.Silent choice
  · simp [shown_of_silent silent, silent]
  · simp only [shown_of_not silent, List.length_map, List.length_range, silent, false_or]
    omega

end CTStat

/-! ## What is written -/

namespace StatBuffer

variable {size : Nat} {out after : StatBuffer} {text : CStr} {texts : List CStr}

theorem snprintf_len (returned : out.snprintf size text = some after) :
    after.len = out.len + text.length := by
  simp only [snprintf, Option.ite_none_left_eq_some, Option.some.injEq] at returned
  obtain ⟨-, -, rfl⟩ := returned
  rfl

theorem snprintf_eq (length : out.bytes.length = size) (small : size < 2147483648)
    (fits : out.len + text.length < size) :
    ∃ bytes, out.snprintf size text = some ⟨bytes, out.len + text.length⟩ ∧
      bytes.length = size := by
  have room_eq : u64 ((size : Int) - out.len - 1) = size - out.len - 1 := by
    unfold u64
    omega
  simp only [snprintf, room_eq]
  generalize written_eq :
    (if size - out.len - 1 = 0 then [] else text.take (size - out.len - 1 - 1) ++ [0]) = written
  have written_le : out.len + written.length ≤ size := by
    rw [← written_eq]
    split
    · simp only [List.length_nil]
      omega
    · simp only [List.length_append, List.length_take, List.length_singleton]
      omega
  rw [if_neg fun outside => by omega, if_neg (by omega)]
  refine ⟨_, rfl, ?_⟩
  simp only [List.length_append, List.length_take, List.length_drop]
  omega

theorem print_len (returned : out.print size texts = some after) :
    after.len = out.len + texts.flatten.length := by
  induction texts generalizing out with
  | nil =>
      cases returned
      rfl
  | cons text texts induction =>
      obtain ⟨middle, written, rest⟩ := Option.bind_eq_some_iff.1 returned
      rw [induction rest, snprintf_len written, List.flatten_cons, List.length_append,
        Nat.add_assoc]

theorem print_eq (length : out.bytes.length = size) (small : size < 2147483648)
    (fits : out.len + texts.flatten.length < size) :
    ∃ bytes, out.print size texts = some ⟨bytes, out.len + texts.flatten.length⟩ ∧
      bytes.length = size := by
  induction texts generalizing out with
  | nil => exact ⟨out.bytes, rfl, length⟩
  | cons text texts induction =>
      rw [List.flatten_cons, List.length_append] at fits ⊢
      have text_fits : out.len + text.length < size := by omega
      obtain ⟨middle, written, middle_length⟩ := snprintf_eq length small text_fits
      have rest_fits : out.len + text.length + texts.flatten.length < size := by omega
      obtain ⟨bytes, printed, bytes_length⟩ :=
        @induction ⟨middle, out.len + text.length⟩ middle_length rest_fits
      rw [← Nat.add_assoc]
      refine ⟨bytes, ?_, bytes_length⟩
      rw [print, List.foldlM_cons, written]
      exact printed

end StatBuffer

namespace CTStat

variable {stat : CTStat} {desc : Nat → CStr} {size : Nat} {out after : StatBuffer}
  {visited : List Nat}

/-- After the objects `len` has the length of all their texts, and the values of each of them had
room. -/
theorem doResults_len (returned : visited.foldlM (stat.doResult desc size) out = some after) :
    (∀ choice ∈ visited, (stat.shown choice).2.length ≤ statMaxValsize) ∧
      after.len = out.len + (visited.flatMap (stat.objTexts desc)).flatten.length := by
  induction visited generalizing out with
  | nil =>
      cases returned
      exact ⟨by simp, rfl⟩
  | cons choice visited induction =>
      obtain ⟨middle, written, rest⟩ := Option.bind_eq_some_iff.1 returned
      obtain ⟨rest_room, rest_len⟩ := induction rest
      obtain ⟨room, printed⟩ := Option.ite_none_left_eq_some.1 written
      refine ⟨List.forall_mem_cons.2 ⟨not_lt.1 room, rest_room⟩, ?_⟩
      rw [rest_len, StatBuffer.print_len printed, List.flatMap_cons, List.flatten_append,
        List.length_append, Nat.add_assoc]

theorem doResults_eq (length : out.bytes.length = size) (small : size < 2147483648)
    (room : ∀ choice ∈ visited, (stat.shown choice).2.length ≤ statMaxValsize)
    (fits : out.len + (visited.flatMap (stat.objTexts desc)).flatten.length < size) :
    ∃ after, visited.foldlM (stat.doResult desc size) out = some after := by
  induction visited generalizing out with
  | nil => exact ⟨out, rfl⟩
  | cons choice visited induction =>
      rw [List.flatMap_cons, List.flatten_append, List.length_append] at fits
      obtain ⟨here, rest⟩ := List.forall_mem_cons.1 room
      have texts_fit : out.len + (stat.objTexts desc choice).flatten.length < size := by omega
      obtain ⟨bytes, printed, bytes_length⟩ := StatBuffer.print_eq length small texts_fit
      have rest_fits : out.len + (stat.objTexts desc choice).flatten.length +
          (visited.flatMap (stat.objTexts desc)).flatten.length < size := by omega
      obtain ⟨after, done⟩ := @induction ⟨bytes, _⟩ bytes_length rest rest_fits
      refine ⟨after, ?_⟩
      rw [List.foldlM_cons, doResult, if_neg (not_lt.2 here), printed]
      exact done

theorem result_len {tid : Int} {tmm : Tm} {buffer : List (BitVec 8)}
    (returned : stat.result desc tid tmm size buffer = some out) :
    ∃ visited, stat.pool.travel = some visited ∧
      (∀ choice ∈ visited, (stat.shown choice).2.length ≤ statMaxValsize) ∧
      out.len =
        (stat.poolTexts tid tmm ++ visited.flatMap (stat.objTexts desc)).flatten.length := by
  obtain ⟨middle, header, rest⟩ := Option.bind_eq_some_iff.1 returned
  obtain ⟨visited, travelled, rest⟩ := Option.bind_eq_some_iff.1 rest
  obtain ⟨room, out_len⟩ := doResults_len rest
  refine ⟨visited, travelled, room, ?_⟩
  rw [out_len, StatBuffer.print_len header, Nat.zero_add, List.flatten_append, List.length_append]

/-- The report stays inside exactly if no object has more values than `values` has places for and
the header and the lines of all objects are together shorter than the buffer. -/
theorem result_inside_iff (stat : CTStat) (desc : Nat → CStr) (tid : Int) (tmm : Tm)
    {buffer : List (BitVec 8)} (small : buffer.length < 2147483648) :
    stat.Inside desc tid tmm buffer ↔ ∃ visited, stat.pool.travel = some visited ∧
      (∀ choice ∈ visited, stat.Roomy choice) ∧
      stat.headerLength tid tmm + (visited.map (stat.lineLength desc)).sum < buffer.length := by
  have total (visited : List Nat) :
      (stat.poolTexts tid tmm ++ visited.flatMap (stat.objTexts desc)).flatten.length =
        stat.headerLength tid tmm + (visited.map (stat.lineLength desc)).sum := by
    rw [List.flatten_append, List.length_append, length_poolTexts]
    congr 1
    induction visited with
    | nil => rfl
    | cons choice visited induction =>
        rw [List.flatMap_cons, List.flatten_append, List.length_append, induction, length_objTexts,
          List.map_cons, List.sum_cons]
  simp only [← roomy_iff, ← total]
  constructor
  · rintro ⟨after, returned, after_lt⟩
    obtain ⟨visited, travelled, room, after_len⟩ := result_len returned
    exact ⟨visited, travelled, room, after_len.symm.trans_lt after_lt⟩
  · rintro ⟨visited, travelled, room, fits⟩
    have both_fit := fits
    rw [List.flatten_append, List.length_append] at both_fit
    have header_fits : 0 + (stat.poolTexts tid tmm).flatten.length < buffer.length := by omega
    obtain ⟨bytes, header, bytes_length⟩ :=
      @StatBuffer.print_eq buffer.length ⟨buffer, 0⟩ _ rfl small header_fits
    have rest_fits : 0 + (stat.poolTexts tid tmm).flatten.length +
        (visited.flatMap (stat.objTexts desc)).flatten.length < buffer.length := by omega
    obtain ⟨after, done⟩ := @doResults_eq stat desc _ ⟨bytes, _⟩ _ bytes_length small room rest_fits
    have returned : stat.result desc tid tmm buffer.length buffer = some after := by
      rw [result, header, travelled]
      exact done
    refine ⟨after, returned, ?_⟩
    obtain ⟨visited', travelled', -, after_len⟩ := result_len returned
    cases travelled'.symm.trans travelled
    exact after_len.trans_lt fits

/-- The first of October 2014. -/
def someTime : Tm := ⟨0, 30, 12, 1, 9, 114, 3, 273⟩

/-- An id with a sum and an average of one value. -/
def someReports : List StatEvent := [.initStatobj ⟨[97], 3, 1⟩, .step0 [97] 5]

/-- The report of two objects with descriptions needs less than 300 bytes. -/
theorem result_inside_two : ∃ stat, run someReports init = some (some stat) ∧
    stat.pool.travel = some [1, 0] ∧
      stat.Inside (fun _ => [100, 101]) 1 someTime (List.replicate 300 0) := by
  have checked : (run someReports init).any (Option.any fun stat =>
      decide (stat.pool.travel = some [1, 0] ∧ (stat.Roomy 1 ∧ stat.Roomy 0) ∧
        stat.headerLength 1 someTime +
          ([1, 0].map (stat.lineLength fun _ => [100, 101])).sum < 300)) = true := by
    decide +kernel
  obtain ⟨outcome, ran, checked⟩ := (Option.any_eq_true _ _).1 checked
  obtain ⟨stat, rfl, checked⟩ := (Option.any_eq_true _ _).1 checked
  obtain ⟨travelled, roomy, fits⟩ := of_decide_eq_true checked
  refine ⟨stat, ran, travelled, (result_inside_iff stat _ 1 someTime ?_).2
    ⟨_, travelled, by simpa using roomy, ?_⟩⟩
  · rw [List.length_replicate]
    decide
  · rwa [List.length_replicate]

/-- `init_statobj("a", STAT_TYPE_SUM)` with eleven values. -/
def elevenA : StatCall := ⟨[97], 1, 11⟩

theorem initStatobj_elevenA : ∃ pool, init.pool.initStatobj elevenA = some (some (0, pool)) ∧
    pool.travel = some [0] ∧ (pool.statobjs 0).type = 1 ∧ (pool.statobjs 0).valSize = 11 := by
  have checked : (init.pool.initStatobj elevenA).any (Option.any fun done =>
      decide (done.1 = 0 ∧ done.2.travel = some [0] ∧ (done.2.statobjs 0).type = 1 ∧
        (done.2.statobjs 0).valSize = 11)) = true := by decide +kernel
  obtain ⟨outcome, returned, checked⟩ := (Option.any_eq_true _ _).1 checked
  obtain ⟨⟨ret, pool⟩, rfl, checked⟩ := (Option.any_eq_true _ _).1 checked
  obtain ⟨rfl, checked⟩ := of_decide_eq_true checked
  exact ⟨pool, returned, checked⟩

/-- The header does not fit into one byte, and `init_statobj` accepts an object whose values are
written beyond `values`, whatever the size of the buffer is. -/
theorem result_outside :
    ¬ init.Inside (fun _ => []) 1 someTime [0] ∧
    ∃ pool, init.pool.initStatobj elevenA = some (some (0, pool)) ∧
      ∀ buffer : List (BitVec 8), buffer.length < 2147483648 →
        ¬ { init with pool }.Inside (fun _ => []) 1 someTime buffer := by
  constructor
  · rintro ⟨out, returned, out_lt⟩
    obtain ⟨visited, -, -, out_len⟩ := result_len returned
    rw [List.flatten_append, List.length_append, length_poolTexts, headerLength] at out_len
    rw [List.length_singleton] at out_lt
    omega
  · obtain ⟨pool, returned, travelled, type_eq, size_eq⟩ := initStatobj_elevenA
    refine ⟨pool, returned, ?_⟩
    rintro buffer - ⟨out, written, -⟩
    obtain ⟨visited, travelled', room, -⟩ := result_len written
    cases travelled'.symm.trans travelled
    replace room := roomy_iff.1 (room 0 List.mem_cons_self)
    simp [Roomy, Silent, type_eq, size_eq] at room

end CTStat

end Spp
