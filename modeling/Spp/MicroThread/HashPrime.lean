import Mathlib.NumberTheory.Bertrand
import Spp.MicroThread.HashList

/-!
# The number of buckets

`GetMaxPrimeNum` tests every candidate with all divisors up to the square root of `num`.  It rejects
the primes up to this root, so it finds the largest prime because there is one above the root, which
Bertrand's postulate gives.
-/

namespace Spp.HashList

variable {sqrtValue num candidate : Nat}

theorem undivided_iff :
    undivided sqrtValue num = true ↔ ∀ k, 2 ≤ k → k ≤ sqrtValue → ¬ k ∣ num := by
  simp only [undivided, List.all_eq_true, List.mem_range'_1, decide_eq_true_eq, Ne,
    Nat.dvd_iff_mod_eq_zero]
  refine forall_congr' fun k => ⟨fun divided two_le le => ?_, fun divided bounds => ?_⟩
  · exact divided ⟨two_le, by omega⟩
  · exact divided bounds.1 (by omega)

/-- The outer loop stops at the largest number that passes the inner loop. -/
theorem le_maxPrimeLoop (le : candidate ≤ num) (pos : 0 < candidate)
    (passes : undivided sqrtValue candidate = true) :
    candidate ≤ maxPrimeLoop sqrtValue num ∧ maxPrimeLoop sqrtValue num ≤ num ∧
      undivided sqrtValue (maxPrimeLoop sqrtValue num) = true := by
  induction num with
  | zero => omega
  | succ num induction =>
      rw [maxPrimeLoop]
      split
      case isTrue found => exact ⟨le, le_rfl, found⟩
      case isFalse rejected =>
        have ne : candidate ≠ num + 1 := fun same => rejected (same ▸ passes)
        obtain ⟨below, above, found⟩ := induction (by omega)
        exact ⟨below, above.trans (Nat.le_succ num), found⟩

theorem undivided_sqrt_iff_prime (above : Nat.sqrt num < candidate) (le : candidate ≤ num) :
    undivided (Nat.sqrt num) candidate = true ↔ candidate.Prime := by
  have root_pos : 0 < Nat.sqrt num := Nat.sqrt_pos.2 (by omega)
  rw [undivided_iff]
  constructor
  · intro passes
    refine Nat.prime_def_le_sqrt.2 ⟨by omega, fun k two_le k_le => ?_⟩
    exact passes k two_le (k_le.trans (Nat.sqrt_le_sqrt le))
  · intro prime k two_le k_le divides
    rcases (Nat.dvd_prime prime).1 divides with rfl | rfl <;> omega

theorem exists_prime_gt_sqrt (three_le : 3 ≤ num) :
    ∃ prime, Nat.sqrt num < prime ∧ prime ≤ num ∧ prime.Prime := by
  have root_pos : 0 < Nat.sqrt num := Nat.sqrt_pos.2 (by omega)
  obtain ⟨prime, is_prime, above, le⟩ := Nat.exists_prime_lt_and_le_two_mul _ root_pos.ne'
  refine ⟨prime, above, le.trans ?_, is_prime⟩
  obtain one | two_le : Nat.sqrt num = 1 ∨ 2 ≤ Nat.sqrt num := by omega
  · omega
  · exact (Nat.mul_le_mul_right _ two_le).trans (Nat.sqrt_le num)

theorem getMaxPrimeNum_spec (three_le : 3 ≤ num) :
    IsGreatest {prime | prime.Prime ∧ prime ≤ num} (getMaxPrimeNum num) := by
  obtain ⟨some_prime, above, le, is_prime⟩ := exists_prime_gt_sqrt three_le
  obtain ⟨root_lt, found_le, found⟩ :=
    le_maxPrimeLoop le is_prime.pos ((undivided_sqrt_iff_prime above le).2 is_prime)
  refine ⟨⟨?_, found_le⟩, ?_⟩
  · exact (undivided_sqrt_iff_prime (above.trans_le root_lt) found_le).1 found
  · rintro prime ⟨is_prime, prime_le⟩
    rcases le_or_gt prime (Nat.sqrt num) with small | large
    · exact small.trans (above.le.trans root_lt)
    · have passes := (undivided_sqrt_iff_prime large prime_le).2 is_prime
      exact (le_maxPrimeLoop prime_le is_prime.pos passes).1

/-- `GetMaxPrimeNum` returns the largest prime up to `num`, and every `HashList` has a prime number
of buckets. -/
theorem getMaxPrimeNum_isGreatest :
    (∀ num, 3 ≤ num → IsGreatest {prime | prime.Prime ∧ prime ≤ num} (getMaxPrimeNum num)) ∧
      ∀ (ι : Type) (max : Int), (new max : HashList ι).max.Prime ∧ 0 <
        (new max : HashList ι).max := by
  refine ⟨fun num => getMaxPrimeNum_spec, fun ι max => ?_⟩
  have prime : (new max : HashList ι).max.Prime := by
    refine (getMaxPrimeNum_spec ?_).1.1
    split <;> omega
  exact ⟨prime, prime.pos⟩

end Spp.HashList
