import Mathlib.Tactic

/-!
# Machine integers

Values of C expressions of a fixed width, given the exact integer that the expression denotes.
Unsigned values wrap; a conversion to `int` wraps as well, while an `int` operation whose exact
value leaves the range of the type is undefined, which `int32` makes a failure, and `int64` does for
longer integers.
-/

/-- Value of a 32-bit unsigned expression. -/
def u32 (value : Int) : Nat := (value % 4294967296).toNat

/-- Value of a 64-bit unsigned expression. -/
def u64 (value : Int) : Nat := (value % 18446744073709551616).toNat

/-- Value of a conversion to a 32-bit signed integer. -/
def i32 (value : Int) : Int := (value + 2147483648) % 4294967296 - 2147483648

/-- Value of a 32-bit signed operation, if it is defined. -/
def int32 (value : Int) : Option Int :=
  if -2147483648 ≤ value ∧ value < 2147483648 then some value else none

/-- Value of a 64-bit signed operation, if it is defined. -/
def int64 (value : Int) : Option Int :=
  if -9223372036854775808 ≤ value ∧ value < 9223372036854775808 then some value else none

theorem i32_lt (value : Int) : i32 value < 2147483648 := by
  unfold i32
  omega

theorem i32_of_lt {value : Nat} (small : value < 2147483648) : i32 value = value := by
  unfold i32
  omega

theorem i32_of_pos {value : Nat} (small : value < 4294967296) (pos : 0 < i32 value) :
    i32 value = value := by
  unfold i32 at pos ⊢
  omega

theorem int32_of_nat {value : Nat} (small : value < 2147483648) :
    int32 (value : Int) = some (value : Int) :=
  if_pos (by omega)
