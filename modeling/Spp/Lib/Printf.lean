import Mathlib.Data.List.Basic

/-!
# Formatted texts

The bytes that the conversions of `printf` make of texts and of decimal numbers.
-/

namespace Printf

/-- The bytes of a text. -/
def ascii (text : List Char) : List (BitVec 8) := text.map fun char => BitVec.ofNat 8 char.toNat

/-- `%-*s` -/
def padded (width : Nat) (text : List (BitVec 8)) : List (BitVec 8) := text.rightpad width 32

/-- `%0*d` -/
def zeroPadded (width : Nat) (value : Int) : List (BitVec 8) :=
  let sign := ascii (if value < 0 then ['-'] else [])
  sign ++ (ascii (Nat.toDigits 10 value.natAbs)).leftpad (width - sign.length) 48

/-- `%d` and `%ld` -/
def decimal (value : Int) : List (BitVec 8) := zeroPadded 0 value

/-- The characters of a decimal number. -/
def digits (value : Int) : Nat :=
  (Nat.toDigits 10 value.natAbs).length + if value < 0 then 1 else 0

theorem length_ascii (text : List Char) : (ascii text).length = text.length := List.length_map ..

theorem length_padded (width : Nat) (text : List (BitVec 8)) :
    (padded width text).length = max width text.length := by
  simp only [padded, List.rightpad, List.length_append, List.length_replicate]
  omega

theorem length_zeroPadded (width : Nat) (value : Int) :
    (zeroPadded width value).length = max width (digits value) := by
  simp only [zeroPadded, digits, List.leftpad, List.length_append, List.length_replicate,
    length_ascii]
  split <;> simp <;> omega

theorem length_decimal (value : Int) : (decimal value).length = digits value := by
  rw [decimal, length_zeroPadded, Nat.zero_max]

theorem le_length_zeroPadded (width : Nat) (value : Int) :
    width ≤ (zeroPadded width value).length := by
  rw [length_zeroPadded]
  exact Nat.le_max_left ..

end Printf
