import Mathlib

/-!
# Order facts about a first-in first-out queue

A queue grows at its end and is taken from at its front. The two notions here say something
about the order of its elements and survive both: that a barrier stands in front of every
element of some kind, and that every element of some kind comes after one of another kind.
-/

namespace Plinth.Core.Fifo

universe u

variable {Entry : Type u}

/-- A barrier is queued and nothing held back is in front of it. -/
def Barred (barrier held : Entry → Prop) : List Entry → Prop
  | [] => False
  | entry :: rest => barrier entry ∨ ¬ held entry ∧ Barred barrier held rest

/-- Each entry of the second kind has one of the first kind in front of it. -/
def Preceded (first second : Entry → Prop) : List Entry → Prop
  | [] => True
  | entry :: rest => ¬ second entry ∧ (first entry ∨ Preceded first second rest)

variable {barrier held first second : Entry → Prop}

/-- Appending puts nothing before a barrier. -/
theorem Barred.append {queue : List Entry} (barred : Barred barrier held queue)
    (more : List Entry) : Barred barrier held (queue ++ more) := by
  induction queue with
  | nil => exact barred.elim
  | cons entry rest ih =>
    rcases barred with atFront | ⟨passes, later⟩
    · exact .inl atFront
    · exact .inr ⟨passes, ih later⟩

/-- A barrier is up as soon as it is queued behind nothing that it holds. -/
theorem barred_append_barrier {queue : List Entry} {entry : Entry} (isBarrier : barrier entry)
    (free : ∀ other ∈ queue, ¬ held other) (more : List Entry) :
    Barred barrier held (queue ++ entry :: more) := by
  induction queue with
  | nil => exact .inl isBarrier
  | cons front rest ih =>
    exact .inr ⟨free front List.mem_cons_self,
      ih fun other mem => free other (List.mem_cons_of_mem _ mem)⟩

theorem preceded_of_forall {queue : List Entry} (none : ∀ entry ∈ queue, ¬ second entry) :
    Preceded first second queue := by
  induction queue with
  | nil => trivial
  | cons entry rest ih =>
    exact ⟨none entry List.mem_cons_self,
      .inr (ih fun other mem => none other (List.mem_cons_of_mem _ mem))⟩

/-- An order between two kinds of entries survives appending. -/
theorem Preceded.append {queue more : List Entry} (preceded : Preceded first second queue)
    (later : (∃ entry ∈ queue, first entry) ∨ ∀ entry ∈ more, ¬ second entry) :
    Preceded first second (queue ++ more) := by
  induction queue with
  | nil =>
    rcases later with ⟨_, mem, _⟩ | none
    · simp at mem
    · exact preceded_of_forall none
  | cons entry rest ih =>
    refine ⟨preceded.1, ?_⟩
    rcases preceded.2 with isFirst | restPreceded
    · exact .inl isFirst
    rcases later with ⟨other, mem, isFirst⟩ | none
    · rcases List.mem_cons.mp mem with rfl | inRest
      · exact .inl isFirst
      · exact .inr (ih restPreceded (.inl ⟨other, inRest, isFirst⟩))
    · exact .inr (ih restPreceded (.inr none))

end Plinth.Core.Fifo
