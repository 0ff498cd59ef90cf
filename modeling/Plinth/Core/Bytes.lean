import Mathlib

/-!
# Byte strings

Texts as the sequences of bytes that the kernel compares, sorts and sends.
-/

namespace Plinth.Core

open List

abbrev Bytes := List UInt8

instance lawfulBEq : LawfulBEq Bytes := inferInstance

def utf8 (text : String) : Bytes := text.toUTF8.data.toList

/-- What holds of the byte values one by one holds of all bytes. -/
instance decidableForall {Holds : UInt8 → Prop} [DecidablePred Holds] : Decidable (∀ c, Holds c) :=
  decidable_of_iff (∀ n : Fin 256, Holds (UInt8.ofFin n))
    ⟨fun all c => all c.toFin, fun all n => all (UInt8.ofFin n)⟩

section Parts

variable {Element : Type*} [DecidableEq Element] {text : List Element} {separator c : Element}

theorem flatten_splitOn : (text.splitOn separator).flatten = text.filter (· != separator) := by
  induction text with
  | nil => simp
  | cons first text ih =>
    rcases exists_cons_of_ne_nil (splitOn_ne_nil separator text) with
      ⟨part, parts, split⟩
    rw [split] at ih
    rw [splitOn_cons_eq_if_modifyHead, split, filter_cons, ← ih]
    by_cases isSeparator : first = separator <;> simp [isSeparator]

/-- Splitting loses the separators only. -/
theorem exists_mem_splitOn_iff :
    (∃ part ∈ text.splitOn separator, c ∈ part) ↔ c ∈ text ∧ c ≠ separator := by
  rw [← mem_flatten, flatten_splitOn, List.mem_filter, bne_iff_ne]

theorem mem_splitOn (mem : c ∈ text) : c = separator ∨ ∃ part ∈ text.splitOn separator, c ∈ part :=
  or_iff_not_imp_left.mpr fun other => exists_mem_splitOn_iff.mpr ⟨mem, other⟩

/-- The first part reaches up to the first separator. -/
theorem splitOn_cut (separator : Element) (text : List Element) :
    text.splitOn separator = text.takeWhile (· != separator) ::
      match text.dropWhile (· != separator) with
      | [] => []
      | _ :: rest => rest.splitOn separator := by
  have cut := takeWhile_append_dropWhile (p := (· != separator)) (l := text)
  have apart : separator ∉ text.takeWhile (· != separator) := by
    intro mem
    simpa using all_eq_true.mp (all_takeWhile (p := (· != separator))) separator mem
  cases isRest : text.dropWhile (· != separator) with
  | nil =>
    rw [isRest, append_nil] at cut
    nth_rewrite 1 [← cut]
    exact splitOn_eq_singleton apart
  | cons first rest =>
    have isSeparator : first = separator := by
      have head := head?_dropWhile_not (· != separator) text
      simpa [isRest] using head
    rw [isRest, isSeparator] at cut
    nth_rewrite 1 [← cut]
    exact splitOn_append_cons_self_of_not_mem apart rest

end Parts

def before (text rest : Bytes) : Bytes := text.take (text.length - rest.length)

/-- What stands before a suffix and the suffix are the text. -/
theorem before_append {text rest : Bytes} (isRest : rest <:+ text) :
    before text rest ++ rest = text := by
  rcases isRest with ⟨front, rfl⟩
  simp [before]

theorem before_cons {c : UInt8} {text rest : Bytes} (isRest : rest <:+ text) :
    before (c :: text) rest = c :: before text rest := by
  have shorter := isRest.length_le
  rw [before, length_cons, Nat.succ_sub shorter]
  rfl

/-- A word ends where the next byte does not belong to it. -/
theorem takeWhile_append_stop {Element : Type*} {keeps : Element → Bool}
    {word rest : List Element} (all : ∀ c ∈ word, keeps c)
    (stops : rest.head?.any keeps = false) :
    (word ++ rest).takeWhile keeps = word ∧ (word ++ rest).dropWhile keeps = rest := by
  rw [takeWhile_append_of_pos all, dropWhile_append_of_pos all]
  cases rest with
  | nil => simp
  | cons c rest => simp_all

namespace Bytes

/-- The order of `std::string`. -/
def Le (first second : Bytes) : Prop := first.map UInt8.toNat ≤ second.map UInt8.toNat

instance : DecidableRel Le := fun first second =>
  inferInstanceAs (Decidable (first.map UInt8.toNat ≤ second.map UInt8.toNat))

theorem Le.antisymm {first second : Bytes} (forward : first.Le second)
    (backward : second.Le first) : first = second := by
  have same := le_antisymm forward backward
  exact map_injective_iff.mpr (fun _ _ => UInt8.toNat_inj.mp) same

theorem nil_le (text : Bytes) : Le [] text :=
  le_of_not_gt (not_lt_nil (text.map UInt8.toNat))

def sort (texts : List Bytes) : List Bytes := texts.insertionSort Le

/-- `std::ranges::binary_search`: the first text that is not smaller is not larger either. -/
def binarySearch (texts : List Bytes) (text : Bytes) : Bool :=
  ((texts.dropWhile fun other => !decide (text.Le other)).head?).any fun other =>
    decide (other.Le text)

/-- What a binary search finds is in the list, sorted or not. -/
theorem mem_of_binarySearch {texts : List Bytes} {text : Bytes}
    (found : binarySearch texts text) : text ∈ texts := by
  rcases (Option.any_eq_true _ _).mp found with ⟨other, isHead, notLarger⟩
  have isMem : other ∈ texts.dropWhile fun other => !decide (text.Le other) :=
    mem_of_mem_head? isHead
  have notSmaller : text.Le other := by
    by_contra smaller
    have dropped := head?_dropWhile_not (fun other => !decide (text.Le other)) texts
    simp [isHead, smaller] at dropped
  rw [notSmaller.antisymm (of_decide_eq_true notLarger)]
  exact (dropWhile_sublist _).subset isMem

section Keyed

variable {Item : Type*} {key : Item → Bytes}

def LeBy (key : Item → Bytes) (first second : Item) : Prop := (key first).Le (key second)

instance : DecidableRel (LeBy key) := fun first second =>
  inferInstanceAs (Decidable ((key first).Le (key second)))

instance : Std.Total (LeBy key) :=
  ⟨fun first second =>
    le_total ((key first).map UInt8.toNat) ((key second).map UInt8.toNat)⟩

instance : IsTrans Item (LeBy key) :=
  ⟨fun _ _ _ forward onward => le_trans (α := List ℕ) forward onward⟩

/-- `std::lower_bound`: the first item whose key is not smaller. -/
def lowerBound (key : Item → Bytes) (items : List Item) (text : Bytes) : Option Item :=
  (items.dropWhile fun item => !decide (text.Le (key item))).head?

theorem mem_of_lowerBound {items : List Item} {text : Bytes} {item : Item}
    (found : lowerBound key items text = some item) : item ∈ items :=
  (dropWhile_sublist _).subset (mem_of_mem_head? found)

/-- In a sorted list without repeated keys the search finds every item. -/
theorem lowerBound_eq_of_mem {items : List Item} (sorted : items.Pairwise (LeBy key))
    (distinct : (items.map key).Nodup) {item : Item} (mem : item ∈ items) :
    lowerBound key items (key item) = some item := by
  induction items with
  | nil => simp at mem
  | cons first items ih =>
    rcases mem_cons.mp mem with rfl | later
    · have self : (key item).Le (key item) := le_refl ((key item).map UInt8.toNat)
      simp [lowerBound, self]
    rw [pairwise_cons] at sorted
    rw [map_cons, nodup_cons] at distinct
    have smaller : ¬ (key item).Le (key first) := by
      intro notSmaller
      have same := notSmaller.antisymm (sorted.1 item later)
      exact distinct.1 (same ▸ mem_map_of_mem later)
    simpa [lowerBound, smaller] using ih sorted.2 distinct.2 later

end Keyed

end Bytes

end Plinth.Core
