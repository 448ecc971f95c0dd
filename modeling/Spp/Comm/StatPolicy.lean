import Spp.Comm.Stat
import Spp.Lib.MachineInt

/-!
# Statistics policies

`comm/tbase/tstat_policy.h`: what a policy makes of the values that are reported, one cell for each
object.  A new cell is zero, and `Max` and `Min` start from it; `Min` takes zero for a cell without
a value.  `Avg` keeps the sum and rounds the quotient towards zero.
-/

namespace Spp.StatPolicy

/-- `__step__`: the value cell after a value, by the type of the policy.  The types are `SUM` 1,
`AVG` 2, `MAX` 4, `MIN` 8, `COUNT` 16 and `SET` 32. -/
def step (type : Nat) (cell val : Int) : Int :=
  if type = 32 then i32 val
  else if type = 4 then if cell < val then i32 val else cell
  else if type = 8 then if val < cell ∨ cell = 0 then i32 val else cell
  else i32 (cell + val)

/-- `__result__`: the count and the values. -/
def result (type : Nat) (count : Int) (cells : List Int) : Int × List Int :=
  if type = 2 then if 0 < count then (count, cells.map (·.tdiv count)) else (0, [])
  else (count, cells)

/-- A cell after these values. -/
def cellAfter (type : Nat) (vals : List Int) : Int := vals.foldl (step type) 0

/-- No value and no sum overflows. -/
structure Fits (vals : List Int) : Prop where
  value : ∀ val ∈ vals, i32 val = val
  sum : ∀ part, part <+: vals → i32 part.sum = part.sum

/-- The value that the type stands for. -/
def Expected (type : Nat) (vals : List Int) (value : Int) : Prop :=
  if type = 32 then vals.getLast? = some value
  else if type = 4 then value ∈ vals ∧ ∀ val ∈ vals, val ≤ value
  else if type = 8 then value ∈ vals ∧ ∀ val ∈ vals, value ≤ val
  else if type = 2 then value = vals.sum / vals.length
  else value = vals.sum

/-- Where the code gives this value. -/
def Regular (type : Nat) (vals : List Int) : Prop :=
  if type = 4 then ∃ val ∈ vals, 0 ≤ val
  else if type = 8 then
    (∃ val ∈ vals, val < 0) ∨ (∀ val ∈ vals, 0 < val) ∨ vals.getLast? = some 0
  else if type = 2 then 0 ≤ vals.sum ∨ (vals.length : Int) ∣ vals.sum
  else True

instance (type : Nat) (vals : List Int) : Decidable (Regular type vals) := by
  unfold Regular
  infer_instance

variable {vals : List Int} {val : Int}

theorem cellAfter_concat (type : Nat) :
    cellAfter type (vals ++ [val]) = step type (cellAfter type vals) val :=
  List.foldl_concat ..

theorem Fits.of_concat (fits : Fits (vals ++ [val])) : Fits vals ∧ i32 val = val :=
  ⟨⟨fun _ member => fits.value _ (List.mem_append_left _ member),
      fun _ is_part => fits.sum _ (is_part.trans (List.prefix_append _ _))⟩,
    fits.value val (by simp)⟩

theorem cellAfter_sum {type : Nat} (other : type ≠ 32 ∧ type ≠ 4 ∧ type ≠ 8) (fits : Fits vals) :
    cellAfter type vals = vals.sum := by
  induction vals using List.reverseRecOn with
  | nil => rfl
  | append_singleton vals val induction =>
      rw [cellAfter_concat, induction fits.of_concat.1, step, if_neg other.1, if_neg other.2.1,
        if_neg other.2.2]
      simpa using fits.sum _ (List.prefix_refl _)

theorem cellAfter_set (fits : Fits vals) (ne : vals ≠ []) :
    vals.getLast? = some (cellAfter 32 vals) := by
  induction vals using List.reverseRecOn with
  | nil => exact absurd rfl ne
  | append_singleton vals val induction =>
      rw [cellAfter_concat, step, if_pos rfl, fits.of_concat.2]
      simp

theorem cellAfter_max (fits : Fits vals) :
    0 ≤ cellAfter 4 vals ∧ (∀ val ∈ vals, val ≤ cellAfter 4 vals) ∧
      (cellAfter 4 vals = 0 ∨ cellAfter 4 vals ∈ vals) := by
  induction vals using List.reverseRecOn with
  | nil => exact ⟨le_rfl, by simp, Or.inl rfl⟩
  | append_singleton vals val induction =>
      obtain ⟨nonneg, upper, known⟩ := induction fits.of_concat.1
      rw [cellAfter_concat, step, if_neg (by decide), if_pos rfl, fits.of_concat.2]
      split
      case isTrue less =>
        exact ⟨by omega, List.forall_mem_append.2 ⟨fun other member =>
          (upper other member).trans less.le, List.forall_mem_singleton.2 le_rfl⟩, Or.inr (by simp)⟩
      case isFalse not_less =>
        exact ⟨nonneg, List.forall_mem_append.2 ⟨upper, List.forall_mem_singleton.2
          (not_lt.1 not_less)⟩, known.imp_right (List.mem_append_left _)⟩

/-- A zero is forgotten when the next value comes, unless there was a negative one. -/
structure MinCell (vals : List Int) (cell : Int) : Prop where
  negative : cell < 0 → cell ∈ vals ∧ ∀ val ∈ vals, cell ≤ val
  nonneg : 0 ≤ cell → ∀ val ∈ vals, 0 ≤ val
  positive : 0 < cell → cell ∈ vals ∧ ((∀ val ∈ vals, cell ≤ val) ∨ 0 ∈ vals)
  last : cell = 0 ↔ vals = [] ∨ 0 ≤ cell ∧ vals.getLast? = some 0

theorem minCell_cellAfter (fits : Fits vals) : MinCell vals (cellAfter 8 vals) := by
  induction vals using List.reverseRecOn with
  | nil => exact ⟨by simp [cellAfter], by simp, by simp [cellAfter], by simp [cellAfter]⟩
  | append_singleton vals val induction =>
      obtain ⟨negative, nonneg, positive, last⟩ := induction fits.of_concat.1
      rw [cellAfter_concat, step, if_neg (by decide), if_neg (by decide), if_pos rfl,
        fits.of_concat.2]
      generalize cellAfter 8 vals = cell at negative nonneg positive last
      have all_iff : ∀ {holds : Int → Prop}, (∀ other ∈ vals ++ [val], holds other) ↔
          (∀ other ∈ vals, holds other) ∧ holds val := by simp [or_imp, forall_and]
      split
      case isTrue taken =>
        refine ⟨fun below => ⟨by simp, all_iff.2 ⟨fun other member => ?_, le_rfl⟩⟩,
          fun above => all_iff.2 ⟨nonneg (by omega), above⟩, fun above => ⟨by simp, ?_⟩,
          by simp; omega⟩
        · by_cases cell_negative : cell < 0
          · exact (by omega : val ≤ cell).trans ((negative cell_negative).2 other member)
          · exact below.le.trans (nonneg (not_lt.1 cell_negative) other member)
        · by_cases cell_zero : cell = 0
          · rcases last.1 cell_zero with rfl | ⟨-, zero⟩
            · exact Or.inl (by simp)
            · exact Or.inr (List.mem_append_left _ (List.mem_of_getLast? zero))
          · have less : val < cell := taken.resolve_right cell_zero
            refine (positive (by omega)).2.imp (fun lower => ?_) (List.mem_append_left _)
            exact all_iff.2 ⟨fun other member => less.le.trans (lower other member), le_rfl⟩
      case isFalse kept =>
        have le : cell ≤ val := by omega
        refine ⟨fun below => ?_, fun above => all_iff.2 ⟨nonneg above, above.trans le⟩,
          fun above => ?_, by simp; omega⟩
        · exact ⟨List.mem_append_left _ (negative below).1, all_iff.2 ⟨(negative below).2, le⟩⟩
        · refine ⟨List.mem_append_left _ (positive above).1, ?_⟩
          exact (positive above).2.imp (fun lower => all_iff.2 ⟨lower, le⟩) (List.mem_append_left _)

theorem expected_max_iff (fits : Fits vals) :
    Expected 4 vals (cellAfter 4 vals) ↔ Regular 4 vals := by
  obtain ⟨nonneg, upper, known⟩ := cellAfter_max fits
  show _ ∧ _ ↔ ∃ val ∈ vals, 0 ≤ val
  constructor
  · exact fun expected => ⟨_, expected.1, nonneg⟩
  · rintro ⟨val, member, val_nonneg⟩
    refine ⟨known.elim (fun zero => ?_) id, upper⟩
    have : val ≤ cellAfter 4 vals := upper val member
    rwa [show cellAfter 4 vals = val by omega]

theorem expected_min_iff (fits : Fits vals) (ne : vals ≠ []) :
    Expected 8 vals (cellAfter 8 vals) ↔ Regular 8 vals := by
  obtain ⟨negative, nonneg, positive, last⟩ := minCell_cellAfter fits
  show _ ∧ _ ↔ (∃ val ∈ vals, val < 0) ∨ (∀ val ∈ vals, 0 < val) ∨ vals.getLast? = some 0
  rcases lt_trichotomy (cellAfter 8 vals) 0 with below | zero | above
  · exact iff_of_true (negative below) (Or.inl ⟨_, (negative below).1, below⟩)
  · have last_zero := ((last.1 zero).resolve_left ne).2
    rw [zero]
    exact iff_of_true ⟨List.mem_of_getLast? last_zero, nonneg zero.ge⟩ (Or.inr (Or.inr last_zero))
  · have not_last : vals.getLast? ≠ some 0 := fun is_zero =>
      above.ne' (last.2 (Or.inr ⟨above.le, is_zero⟩))
    constructor
    · exact fun expected => Or.inr (Or.inl fun val member => above.trans_le (expected.2 val member))
    · rintro (⟨val, member, below⟩ | all_positive | is_zero)
      · exact absurd (nonneg above.le val member) (not_le.2 below)
      · refine ⟨(positive above).1, (positive above).2.resolve_right fun zero => ?_⟩
        exact lt_irrefl _ (all_positive 0 zero)
      · exact absurd is_zero not_last

theorem expected_avg_iff (fits : Fits vals) (ne : vals ≠ []) :
    Expected 2 vals ((cellAfter 2 vals).tdiv vals.length) ↔ Regular 2 vals := by
  have length_pos : (0 : Int) < vals.length := Int.ofNat_lt.2 (List.length_pos_iff.2 ne)
  rw [cellAfter_sum (by decide) fits, Int.tdiv_eq_ediv, Int.sign_eq_one_of_pos length_pos]
  show _ = vals.sum / vals.length ↔ 0 ≤ vals.sum ∨ (vals.length : Int) ∣ vals.sum
  split
  case isTrue exact_quotient => exact iff_of_true (Int.add_zero _) exact_quotient
  case isFalse rounded => exact iff_of_false (by omega) rounded

/-- The value that a policy shows is right exactly for regular values. -/
theorem expected_iff {type : Nat} (fits : Fits vals) (ne : vals ≠ []) :
    (∃ value, (result type vals.length [cellAfter type vals]).2 = [value] ∧
      Expected type vals value) ↔ Regular type vals := by
  have length_pos : (0 : Int) < vals.length := Int.ofNat_lt.2 (List.length_pos_iff.2 ne)
  by_cases avg : type = 2
  · subst avg
    rw [← expected_avg_iff fits ne, result, if_pos rfl, if_pos length_pos]
    simp
  rw [result, if_neg avg]
  simp only [List.cons.injEq, and_true, exists_eq_left']
  by_cases max : type = 4
  · exact max ▸ expected_max_iff fits
  by_cases min : type = 8
  · exact min ▸ expected_min_iff fits ne
  refine iff_of_true ?_ (by simp [Regular, avg, max, min])
  by_cases set : type = 32
  · subst set
    exact cellAfter_set fits ne
  · rw [Expected, if_neg set, if_neg max, if_neg min, if_neg avg]
    exact cellAfter_sum ⟨set, max, min⟩ fits

end Spp.StatPolicy
