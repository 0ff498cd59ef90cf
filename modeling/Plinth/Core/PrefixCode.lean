import Plinth.Core.Bytes

/-!
# Prefix codes

An encoding of which no code word begins another one, so that values written one after the other
can be told apart without separators: numbers of a fixed width, texts after their length, and
sequences of such values.
-/

namespace Plinth.Core

open List

variable {Value : Type*}

/-- On the values of the domain a code word ends where it says: what follows it is the same too. -/
def PrefixCode (Domain : Value → Prop) (encode : Value → Bytes) : Prop :=
  ∀ first second, Domain first → Domain second → ∀ rest rest',
    encode first ++ rest = encode second ++ rest' → first = second ∧ rest = rest'

namespace PrefixCode

variable {Domain : Value → Prop} {encode : Value → Bytes}

/-- An injective code of fixed width is a prefix code. -/
theorem of_length {width : ℕ} (length : ∀ value, (encode value).length = width)
    (inj : ∀ first second, Domain first → Domain second →
      encode first = encode second → first = second) :
    PrefixCode Domain encode := by
  intro first second inFirst inSecond rest rest' same
  have sameLength : (encode first).length = (encode second).length := by rw [length, length]
  rcases append_inj same sameLength with ⟨sameWord, sameRest⟩
  exact ⟨inj first second inFirst inSecond sameWord, sameRest⟩

/-- Two sequences of the same number of values have different encodings, unless they are equal. -/
theorem flatMap (code : PrefixCode Domain encode) {first second : List Value}
    (sameLength : first.length = second.length) (inFirst : ∀ value ∈ first, Domain value)
    (inSecond : ∀ value ∈ second, Domain value)
    (same : first.flatMap encode = second.flatMap encode) : first = second := by
  induction first generalizing second with
  | nil => exact (length_eq_zero_iff.mp sameLength.symm).symm
  | cons value first ih =>
    cases second with
    | nil => simp at sameLength
    | cons value' second =>
      rw [flatMap_cons, flatMap_cons] at same
      rcases code value value' (inFirst value mem_cons_self)
        (inSecond value' mem_cons_self) _ _ same with ⟨rfl, sameRest⟩
      have later := ih (by simpa using sameLength)
        (fun other mem => inFirst other (mem_cons_of_mem _ mem))
        (fun other mem => inSecond other (mem_cons_of_mem _ mem)) sameRest
      rw [later]

end PrefixCode

/-- The last `width` bytes of a number, the most significant one first. -/
def bigEndian : ℕ → ℕ → Bytes
  | 0, _ => []
  | width + 1, value => bigEndian width (value / 256) ++ [UInt8.ofNat value]

@[simp]
theorem length_bigEndian (width value : ℕ) : (bigEndian width value).length = width := by
  induction width generalizing value with
  | zero => rfl
  | succ width ih => simp [bigEndian, ih]

/-- Numbers that fit the width have different encodings. -/
theorem bigEndian_inj {width first second : ℕ} (inFirst : first < 256 ^ width)
    (inSecond : second < 256 ^ width) (same : bigEndian width first = bigEndian width second) :
    first = second := by
  induction width generalizing first second with
  | zero =>
    rw [Nat.pow_zero] at inFirst inSecond
    omega
  | succ width ih =>
    rcases append_inj same (by simp) with ⟨sameHigh, sameLow⟩
    rw [Nat.pow_succ] at inFirst inSecond
    have high : first / 256 = second / 256 :=
      ih (Nat.div_lt_of_lt_mul (by omega)) (Nat.div_lt_of_lt_mul (by omega)) sameHigh
    have low : first % 256 = second % 256 := by
      have sameByte := congrArg UInt8.toNat (List.cons.inj sameLow).1
      simpa using sameByte
    omega

theorem prefixCode_bigEndian (width : ℕ) :
    PrefixCode (fun value => value < 256 ^ width) (bigEndian width) :=
  .of_length (length_bigEndian width) fun _ _ inFirst inSecond => bigEndian_inj inFirst inSecond

def framed (width : ℕ) (text : Bytes) : Bytes := bigEndian width text.length ++ text

/-- A text with its length in front is a prefix code. -/
theorem prefixCode_framed (width : ℕ) :
    PrefixCode (fun text => text.length < 256 ^ width) (framed width) := by
  intro first second inFirst inSecond rest rest' same
  simp only [framed, append_assoc] at same
  rcases prefixCode_bigEndian width _ _ inFirst inSecond _ _ same with ⟨sameLength, sameText⟩
  exact append_inj sameText sameLength

end Plinth.Core
