import Mathlib

/-!
# Live objects

A finite family of objects that come and go under keys, and sums over the objects that are there.
A counter that is kept beside such a family is correct if it changes with the family.
-/

namespace Plinth.Core

open Function

structure Live (Key Item : Type*) where
  ids : Finset Key
  item : Key → Item

namespace Live

variable {Key Item : Type*} [DecidableEq Key] (live : Live Key Item)

def add (key : Key) (value : Item) : Live Key Item :=
  ⟨insert key live.ids, update live.item key value⟩

def set (key : Key) (value : Item) : Live Key Item :=
  ⟨live.ids, update live.item key value⟩

def remove (key : Key) : Live Key Item := ⟨live.ids.erase key, live.item⟩

def total (live : Live Key Item) (f : Item → ℕ) : ℕ := ∑ key ∈ live.ids, f (live.item key)

variable {live} {key other : Key} {value : Item} {f g : Item → ℕ}

@[simp]
theorem mem_add : other ∈ (live.add key value).ids ↔ other = key ∨ other ∈ live.ids :=
  Finset.mem_insert

@[simp]
theorem ids_set : (live.set key value).ids = live.ids := rfl

@[simp]
theorem mem_remove : other ∈ (live.remove key).ids ↔ other ≠ key ∧ other ∈ live.ids :=
  Finset.mem_erase

@[simp]
theorem item_add : (live.add key value).item = update live.item key value := rfl

@[simp]
theorem item_set : (live.set key value).item = update live.item key value := rfl

@[simp]
theorem item_remove : (live.remove key).item = live.item := rfl

omit [DecidableEq Key] in
theorem total_congr (same : ∀ key ∈ live.ids, f (live.item key) = g (live.item key)) :
    live.total f = live.total g :=
  Finset.sum_congr rfl same

theorem sum_update {ids : Finset Key} {item : Key → Item} (absent : key ∉ ids) :
    ∑ other ∈ ids, f (update item key value other) = ∑ other ∈ ids, f (item other) := by
  apply Finset.sum_congr rfl
  intro other mem
  rw [update_of_ne (ne_of_mem_of_not_mem mem absent)]

/-- A fresh item adds its own share. -/
theorem total_add (fresh : key ∉ live.ids) :
    (live.add key value).total f = live.total f + f value := by
  simp only [total, add]
  rw [Finset.sum_insert fresh, update_self, sum_update fresh, add_comm]

/-- An item takes its own share with it. -/
theorem total_remove (mem : key ∈ live.ids) :
    (live.remove key).total f + f (live.item key) = live.total f :=
  Finset.sum_erase_add _ _ mem

/-- A changed item changes the total by its own share. -/
theorem total_set (mem : key ∈ live.ids) :
    (live.set key value).total f + f (live.item key) = live.total f + f value := by
  have before : (live.remove key).total f + f (live.item key) = live.total f := total_remove mem
  have after : (live.set key value).total f = (live.remove key).total f + f value := by
    simp only [total, set, remove]
    rw [← Finset.sum_erase_add _ _ mem, update_self, sum_update (Finset.notMem_erase _ _)]
  omega

theorem total_set_of_eq (mem : key ∈ live.ids) (same : f value = f (live.item key)) :
    (live.set key value).total f = live.total f := by
  have changed := @total_set _ _ _ live key value f mem
  omega

/-- No item has more than the total. -/
theorem le_total (mem : key ∈ live.ids) : f (live.item key) ≤ live.total f := by
  rw [← total_remove mem]
  exact Nat.le_add_left _ _

omit [DecidableEq Key] in
theorem ids_eq_empty (none : live.total (fun _ => 1) = 0) : live.ids = ∅ := by
  simpa [total] using none

end Live

end Plinth.Core
