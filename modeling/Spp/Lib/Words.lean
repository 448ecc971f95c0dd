import Mathlib.Tactic
import Spp.Lib.ByteRegion

/-!
# Words of 32 bits

A word in memory is four bytes, the least significant one first.  Reversing the bytes of a word
commutes with the exclusive or, so that a check word can be formed in either byte order.
-/

/-- The bytes in reverse. -/
def byteSwap (word : UInt32) : UInt32 :=
  word >>> (24 : UInt32) ||| word >>> (8 : UInt32) &&& (65280 : UInt32) |||
    word <<< (8 : UInt32) &&& (16711680 : UInt32) ||| word <<< (24 : UInt32)

@[simp] theorem byteSwap_zero : byteSwap 0 = 0 := by decide

theorem getLsbD_byteSwap (word : UInt32) {index : Nat} (inside : index < 32) :
    (byteSwap word).toBitVec.getLsbD index =
      word.toBitVec.getLsbD (24 + 2 * (index % 8) - index) := by
  simp only [byteSwap, UInt32.toBitVec_or, UInt32.toBitVec_and, UInt32.toBitVec_shiftRight,
    UInt32.toBitVec_shiftLeft]
  interval_cases index <;> simp

@[simp] theorem byteSwap_byteSwap (word : UInt32) : byteSwap (byteSwap word) = word := by
  apply UInt32.eq_of_toBitVec_eq
  apply BitVec.eq_of_getLsbD_eq
  intro index inside
  rw [getLsbD_byteSwap _ inside, getLsbD_byteSwap _ (by omega)]
  congr 1
  omega

theorem byteSwap_xor (first second : UInt32) :
    byteSwap (first ^^^ second) = byteSwap first ^^^ byteSwap second := by
  apply UInt32.eq_of_toBitVec_eq
  apply BitVec.eq_of_getLsbD_eq
  intro index inside
  rw [UInt32.toBitVec_xor, BitVec.getLsbD_xor, getLsbD_byteSwap _ inside,
    getLsbD_byteSwap _ inside, getLsbD_byteSwap _ inside, UInt32.toBitVec_xor, BitVec.getLsbD_xor]

theorem foldl_xor_map_byteSwap (words : List UInt32) (first : UInt32) :
    (words.map byteSwap).foldl (· ^^^ ·) (byteSwap first) =
      byteSwap (words.foldl (· ^^^ ·) first) := by
  induction words generalizing first with
  | nil => rfl
  | cons word words induction =>
      rw [List.map_cons, List.foldl_cons, List.foldl_cons, ← byteSwap_xor, induction]

/-- The bytes of a word. -/
def wordBytes (word : UInt32) : List UInt8 := le32 word.toNat

/-- The word in these bytes. -/
def readWord (bytes : List UInt8) : UInt32 := UInt32.ofNat (readLe32 bytes)

@[simp] theorem length_wordBytes (word : UInt32) : (wordBytes word).length = 4 := rfl

@[simp] theorem readWord_wordBytes_append (word : UInt32) (rest : List UInt8) :
    readWord (wordBytes word ++ rest) = word := by
  rw [readWord, wordBytes, readLe32_le32_append, Nat.mod_eq_of_lt word.toNat_lt, UInt32.ofNat_toNat]

/-- So many words, one after the other. -/
def readWords : Nat → List UInt8 → List UInt32
  | 0, _ => []
  | count + 1, bytes => readWord bytes :: readWords count (bytes.drop 4)

theorem readWords_append (words : List UInt32) (rest : List UInt8) :
    readWords words.length (words.flatMap wordBytes ++ rest) = words := by
  induction words with
  | nil => rfl
  | cons word words induction =>
      rw [List.flatMap_cons, List.append_assoc, List.length_cons, readWords,
        readWord_wordBytes_append, List.drop_left' (length_wordBytes word), induction]

theorem length_flatMap_wordBytes (words : List UInt32) :
    (words.flatMap wordBytes).length = 4 * words.length := by
  induction words with
  | nil => rfl
  | cons word words induction =>
      rw [List.flatMap_cons, List.length_append, induction, length_wordBytes, List.length_cons]
      omega
