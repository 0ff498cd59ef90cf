import Plinth.Core.Bytes

/-!
# Base64 without padding

Bytes as digits of six bits over an alphabet. The decoder reads digit by digit and keeps the bits
that do not make up a byte yet.
-/

namespace Plinth.Core

open List

structure Base64 where
  digits : Bytes
  size : digits.length = 64
  distinct : digits.Nodup

namespace Base64

variable (alphabet : Base64)

def digit (value : Nat) : UInt8 := alphabet.digits.getD value 0

def value? (c : UInt8) : Option Nat :=
  if c ∈ alphabet.digits then some (alphabet.digits.idxOf c) else none

def values (first second third : UInt8) : List Nat :=
  [first.toNat / 4, first.toNat % 4 * 16 + second.toNat / 16,
    second.toNat % 16 * 4 + third.toNat / 64, third.toNat % 64]

def encode : Bytes → Bytes
  | [] => []
  | [first] => ((values first 0 0).take 2).map alphabet.digit
  | [first, second] => ((values first second 0).take 3).map alphabet.digit
  | first :: second :: third :: rest =>
    (values first second third).map alphabet.digit ++ encode rest

/-- The bytes of a text after some bits, and the bits that are left at its end. -/
def decodeFrom (bits count : Nat) : Bytes → Option (Bytes × Nat)
  | [] => some ([], bits)
  | c :: text =>
    (alphabet.value? c).bind fun value =>
      let bits := bits * 64 + value
      let count := count + 6
      if 8 ≤ count then
        let count := count - 8
        (decodeFrom (bits % 2 ^ count) count text).map fun (bytes, left) =>
          ((bits / 2 ^ count % 256).toUInt8 :: bytes, left)
      else decodeFrom (bits % 2 ^ count) count text

variable {alphabet}

theorem value?_digit {value : Nat} (small : value < 64) :
    alphabet.value? (alphabet.digit value) = some value := by
  have bound : value < alphabet.digits.length := by rw [alphabet.size]; exact small
  rw [value?, digit, getD_eq_getElem _ _ bound, if_pos (getElem_mem bound),
    alphabet.distinct.idxOf_getElem]

theorem lt_of_mem_values {first second third : UInt8} {value : Nat}
    (mem : value ∈ values first second third) : value < 64 := by
  have firstSmall := first.toNat_lt
  have secondSmall := second.toNat_lt
  have thirdSmall := third.toNat_lt
  simp only [values, mem_cons, not_mem_nil, or_false] at mem
  omega

/-- A digit that completes a byte gives the byte and leaves the bits below it. -/
theorem decodeFrom_byte (c : UInt8) (left : Nat) {value bits count : Nat} (small : value < 64)
    (enough : 8 ≤ count + 6) (isByte : bits * 64 + value = c.toNat * 2 ^ (count + 6 - 8) + left)
    (isLeft : left < 2 ^ (count + 6 - 8)) (text : Bytes) :
    alphabet.decodeFrom bits count (alphabet.digit value :: text) =
      (alphabet.decodeFrom left (count + 6 - 8) text).map fun read => (c :: read.1, read.2) := by
  have quotient : (bits * 64 + value) / 2 ^ (count + 6 - 8) = c.toNat := by
    rw [isByte, Nat.mul_comm, Nat.mul_add_div (Nat.two_pow_pos _), Nat.div_eq_of_lt isLeft,
      Nat.add_zero]
  have remainder : (bits * 64 + value) % 2 ^ (count + 6 - 8) = left := by
    rw [isByte, Nat.mul_comm, Nat.mul_add_mod, Nat.mod_eq_of_lt isLeft]
  have isSame : (c.toNat % 256).toUInt8 = c := by
    rw [Nat.mod_eq_of_lt c.toNat_lt]
    exact UInt8.ofNat_toNat
  simp only [decodeFrom, value?_digit small, Option.bind_some, if_pos enough, quotient, remainder,
    isSame]

theorem decodeFrom_start {value : Nat} (small : value < 64) (text : Bytes) :
    alphabet.decodeFrom 0 0 (alphabet.digit value :: text) = alphabet.decodeFrom value 6 text := by
  simp [decodeFrom, value?_digit small, Nat.mod_eq_of_lt small]

/-- Decoding takes encoding back and leaves no bits over. -/
theorem decodeFrom_encode (bytes : Bytes) :
    alphabet.decodeFrom 0 0 (alphabet.encode bytes) = some (bytes, 0) := by
  fun_induction encode alphabet bytes with
  | case1 => rfl
  | case2 first =>
    have firstSmall := first.toNat_lt
    simp only [values, UInt8.toNat_zero, Nat.zero_div, Nat.add_zero, take_succ_cons,
      take_zero, map_cons, map_nil]
    rw [decodeFrom_start (by omega),
      decodeFrom_byte first 0 (by omega) (by omega) (by omega) (by omega)]
    rfl
  | case3 first second =>
    have firstSmall := first.toNat_lt
    have secondSmall := second.toNat_lt
    simp only [values, UInt8.toNat_zero, Nat.zero_div, Nat.add_zero, take_succ_cons,
      take_zero, map_cons, map_nil]
    rw [decodeFrom_start (by omega),
      decodeFrom_byte first (second.toNat / 16) (by omega) (by omega) (by omega) (by omega),
      decodeFrom_byte second 0 (by omega) (by omega) (by omega) (by omega)]
    rfl
  | case4 first second third rest ih =>
    have firstSmall := first.toNat_lt
    have secondSmall := second.toNat_lt
    have thirdSmall := third.toNat_lt
    simp only [values, map_cons, map_nil, cons_append, nil_append]
    rw [decodeFrom_start (by omega),
      decodeFrom_byte first (second.toNat / 16) (by omega) (by omega) (by omega) (by omega),
      decodeFrom_byte second (third.toNat / 64) (by omega) (by omega) (by omega) (by omega),
      decodeFrom_byte third 0 (by omega) (by omega) (by omega) (by omega), ih]
    rfl

/-- Every three bytes take four digits, and a rest takes no padding. -/
theorem length_encode (bytes : Bytes) :
    (alphabet.encode bytes).length = (bytes.length * 4 + 2) / 3 := by
  fun_induction encode alphabet bytes with
  | case1 => rfl
  | case2 | case3 => simp [values]
  | case4 first second third rest ih =>
    simp only [values, length_append, length_map, length_cons, length_nil, ih]
    omega

theorem mem_digits_of_mem_encode {bytes : Bytes} {c : UInt8} (mem : c ∈ alphabet.encode bytes) :
    c ∈ alphabet.digits := by
  have isDigit : ∀ {value : Nat}, value < 64 → alphabet.digit value ∈ alphabet.digits := by
    intro value small
    have bound : value < alphabet.digits.length := by rw [alphabet.size]; exact small
    rw [digit, getD_eq_getElem _ _ bound]
    exact getElem_mem bound
  fun_induction encode alphabet bytes with
  | case1 => cases mem
  | case2 first | case3 first second =>
    rcases mem_map.mp mem with ⟨value, isValue, rfl⟩
    exact isDigit (lt_of_mem_values (mem_of_mem_take isValue))
  | case4 first second third rest ih =>
    rcases mem_append.mp mem with here | later
    · rcases mem_map.mp here with ⟨value, isValue, rfl⟩
      exact isDigit (lt_of_mem_values isValue)
    · exact ih later

end Base64

end Plinth.Core
