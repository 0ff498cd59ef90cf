import Plinth.Core.Bytes

/-!
# Decimal numbers

The decimal digits of a number as text, and the number that a text of digits spells. Texts of
bytes come first, then texts of characters.
-/

namespace Plinth.Core

open List

def isDigit (c : UInt8) : Bool := '0'.toUInt8 ≤ c && c ≤ '9'.toUInt8

def digitByte (value : Nat) : UInt8 := (value + 48).toUInt8

/-- `std::to_string`. -/
def decimal (n : Nat) : Bytes :=
  if n = 0 then [digitByte 0] else ((Nat.digits 10 n).map digitByte).reverse

def undecimal (text : Bytes) : Nat := text.foldl (fun value c => c.toNat - 48 + 10 * value) 0

theorem isDigit_digitByte {value : Nat} (small : value < 10) : isDigit (digitByte value) := by
  interval_cases value <;> decide

theorem toNat_digitByte {value : Nat} (small : value < 10) :
    (digitByte value).toNat - 48 = value := by
  interval_cases value <;> decide

theorem undecimal_reverse_digits {digits : List Nat} (small : ∀ digit ∈ digits, digit < 10) :
    undecimal (digits.map digitByte).reverse = Nat.ofDigits 10 digits := by
  rw [undecimal, foldl_reverse]
  induction digits with
  | nil => rfl
  | cons digit digits ih =>
    have rest := ih fun other mem => small other (mem_cons_of_mem _ mem)
    simp only [map_cons, foldr_cons, Nat.ofDigits_cons]
    rw [rest, toNat_digitByte (small digit (by simp))]

/-- Reading takes writing back. -/
theorem undecimal_decimal (n : Nat) : undecimal (decimal n) = n := by
  by_cases zero : n = 0
  · subst zero
    rfl
  · rw [decimal, if_neg zero,
      undecimal_reverse_digits fun digit mem => Nat.digits_lt_base (by omega) mem,
      Nat.ofDigits_digits]

theorem isDigit_of_mem_decimal {n : Nat} {c : UInt8} (mem : c ∈ decimal n) : isDigit c := by
  rw [decimal] at mem
  split at mem
  · rw [mem_singleton.mp mem]
    decide
  · rcases mem_map.mp (mem_reverse.mp mem) with ⟨digit, isDigit, rfl⟩
    exact isDigit_digitByte (Nat.digits_lt_base (by omega) isDigit)

theorem decimal_ne_nil (n : Nat) : decimal n ≠ [] := by
  rw [decimal]
  split
  · simp
  · rename_i nonzero
    simpa using Nat.digits_ne_nil_iff_ne_zero.mpr nonzero

/-- A number below `10 ^ k` is written with at most `k` digits. -/
theorem length_decimal_le {n k : Nat} (positive : 0 < k) (small : n < 10 ^ k) :
    (decimal n).length ≤ k := by
  rw [decimal]
  split
  · exact positive
  · rw [length_reverse, length_map]
    exact Nat.digits_length_le_iff (by omega) n |>.mpr small

section DigitChars

variable {digits : List Char} {n : Nat}

theorem exists_digitChar {c : Char} (digit : c.isDigit) : ∃ d < 10, c = Nat.digitChar d := by
  simp only [Char.isDigit, Bool.and_eq_true, decide_eq_true_eq, ge_iff_le, UInt32.le_iff_toNat_le]
    at digit
  have isChar : c = Char.ofNat c.val.toNat := (Char.ofNat_toNat c).symm
  generalize c.val.toNat = code at digit isChar
  have low : 48 ≤ code := digit.1
  have high : code ≤ 57 := digit.2
  refine ⟨code - 48, by omega, isChar.trans ?_⟩
  interval_cases code <;> rfl

/-- Appending digits is reading them on from the number. -/
theorem toDigits_append (positive : 0 < n) (all : ∀ c ∈ digits, c.isDigit) :
    Nat.toDigits 10 n ++ digits = Nat.toDigits 10 (Nat.ofDigitChars 10 digits n) := by
  induction digits generalizing n with
  | nil => simp
  | cons c digits ih =>
    rcases forall_mem_cons.mp all with ⟨isDigit, areDigits⟩
    rcases exists_digitChar isDigit with ⟨d, small, rfl⟩
    rw [Nat.ofDigitChars_cons_digitChar_of_lt_ten small, ← ih (by omega) areDigits,
      ← Nat.toDigits_append_toDigits (by decide) positive small, Nat.toDigits_of_lt_base small]
    simp

theorem head?_toDigits (positive : 0 < n) : (Nat.toDigits 10 n).head? ≠ some '0' := by
  induction n using Nat.strongRecOn with
  | ind n ih =>
    rw [Nat.toDigits_eq_if (by decide)]
    split
    · interval_cases n <;> decide
    · rw [head?_append_of_ne_nil _ Nat.toDigits_ne_nil]
      exact ih (n / 10) (by omega) (by omega)

/-- A numeral without a leading zero is the one of its number. -/
theorem toDigits_ofDigitChars (nonempty : digits ≠ []) (all : ∀ c ∈ digits, c.isDigit)
    (noZero : digits.head? ≠ some '0') :
    Nat.toDigits 10 (Nat.ofDigitChars 10 digits 0) = digits := by
  rcases exists_cons_of_ne_nil nonempty with ⟨first, rest, rfl⟩
  rcases forall_mem_cons.mp all with ⟨isDigit, areDigits⟩
  rcases exists_digitChar isDigit with ⟨d, small, rfl⟩
  have nonzero : 0 < d := Nat.pos_of_ne_zero fun zero => noZero (by rw [zero]; rfl)
  rw [Nat.ofDigitChars_cons_digitChar_of_lt_ten small, Nat.mul_zero, Nat.zero_add,
    ← toDigits_append nonzero areDigits, Nat.toDigits_of_lt_base small, singleton_append]

end DigitChars

end Plinth.Core
