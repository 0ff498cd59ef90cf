import Plinth.Core.Transition

/-!
# Lifecycle dispatch fence and drain counter

Model of `capabilities/drain.cpp`. Drain states are shared objects: the map `g_drains` and the live
dispatch guards refer to them by address, and an entry may be erased and created anew while guards
of the name are running. Every operation below is one critical section of `g_mu`, so an interleaving
of threads is a sequence of operations.

The abstract side is `Registry.view`, which forgets addresses and treats an absent entry as the idle
state. Each operation acts on the view as a plain update at one name.
-/

namespace Plinth.Capabilities.Drain

open List Function

/-- Address of a drain state held through `std::shared_ptr`. -/
abbrev StateRef := Nat

structure DrainState where
  inFlight : Nat := 0
  fenced : Bool := false
  applicationBlocked : Bool := false

/-- A dispatch guard. A guard that was not admitted has no state and no name. -/
structure DispatchGuard where
  name : String := ""
  state : Option StateRef := none
  wasAdmitted : Bool := false
  deriving DecidableEq

/-- The globals of the module, the heap of drain states and the guards alive. -/
structure Registry where
  heap : StateRef → DrainState
  allocated : StateRef
  drains : AList (fun _ : String => StateRef)
  activeCount : Nat
  guards : List DispatchGuard

namespace Registry

def empty : Registry where
  heap _ := {}
  allocated := 0
  drains := ∅
  activeCount := 0
  guards := []

def modify (s : Registry) (ref : StateRef) (f : DrainState → DrainState) : Registry :=
  { s with heap := update s.heap ref (f (s.heap ref)) }

/-- `try_emplace` with a fresh drain state; an existing entry is left alone. -/
def tryEmplace (s : Registry) (name : String) : Registry × StateRef :=
  match s.drains.lookup name with
  | some ref => (s, ref)
  | none =>
    ({ s with
        heap := update s.heap s.allocated {}
        allocated := s.allocated + 1
        drains := s.drains.insert name s.allocated }, s.allocated)

def beginDrain (s : Registry) (name : String) : Registry × StateRef :=
  match s.drains.lookup name with
  | some ref =>
    let fenced := s.modify ref fun st => { st with fenced := true }
    if (s.heap ref).fenced then (fenced, ref)
    else ({ fenced with activeCount := s.activeCount + 1 }, ref)
  | none =>
    ({ s with
        heap := update s.heap s.allocated { fenced := true }
        allocated := s.allocated + 1
        drains := s.drains.insert name s.allocated
        activeCount := s.activeCount + 1 }, s.allocated)

def endDrain (s : Registry) (name : String) : Registry :=
  match s.drains.lookup name with
  | none => s
  | some ref =>
    let released := s.modify ref fun st =>
      { st with fenced := false, applicationBlocked := false }
    let counted := if (s.heap ref).fenced then
        { released with activeCount := s.activeCount - 1 } else released
    if (s.heap ref).inFlight = 0 then { counted with drains := s.drains.erase name }
    else counted

def isFenced (s : Registry) (name : String) : Bool :=
  match s.drains.lookup name with
  | some ref => (s.heap ref).fenced
  | none => false

def blockApplication (s : Registry) (name : String) : Registry :=
  let (s, ref) := s.tryEmplace name
  s.modify ref fun st => { st with applicationBlocked := true }

/-- What `wait_for_zero` returns when it looks at the state for the last time: whether the
count is zero, and the count. -/
def waitForZero (s : Registry) (ref : StateRef) : Bool × Nat :=
  ((s.heap ref).inFlight = 0, (s.heap ref).inFlight)

def activeDrainCount (s : Registry) : Nat := s.activeCount

/-- Construction of a guard; the guard joins the live ones whether admitted or not. -/
def construct (s : Registry) (name : String) : Registry × DispatchGuard :=
  let (s, ref) := s.tryEmplace name
  if (s.heap ref).fenced then
    ({ s with guards := {} :: s.guards }, {})
  else
    let guard : DispatchGuard := { name := name, state := some ref, wasAdmitted := true }
    let counted := s.modify ref fun st => { st with inFlight := st.inFlight + 1 }
    ({ counted with guards := guard :: s.guards }, guard)

/-- The section of the destructor that runs under `g_mu`. What follows it only wakes
waiters of the state. -/
def releaseGuard (s : Registry) (guard : DispatchGuard) : Registry :=
  match guard.state with
  | none => s
  | some ref =>
    let prev := (s.heap ref).inFlight
    let s := s.modify ref fun st => { st with inFlight := st.inFlight - 1 }
    if prev = 1 ∧ (s.heap ref).fenced = false ∧ (s.heap ref).applicationBlocked = false ∧
        s.drains.lookup guard.name = some ref then
      { s with drains := s.drains.erase guard.name }
    else s

def destroy (s : Registry) (guard : DispatchGuard) : Registry :=
  { s.releaseGuard guard with guards := s.guards.erase guard }

end Registry

inductive Operation where
  | beginDrain (name : String)
  | endDrain (name : String)
  | blockApplication (name : String)
  | construct (name : String)
  | destroy (guard : DispatchGuard)

/-- One critical section. Only a live guard can be destroyed. -/
def Registry.apply (s : Registry) : Operation → Option Registry
  | .beginDrain name => some (s.beginDrain name).1
  | .endDrain name => some (s.endDrain name)
  | .blockApplication name => some (s.blockApplication name)
  | .construct name => some (s.construct name).1
  | .destroy guard => if guard ∈ s.guards then some (s.destroy guard) else none

def system : Core.TransitionSystem Registry Operation where
  initial s := s = .empty
  step s operation next := s.apply operation = some next

namespace Registry

/-- The drain state of a name, with an absent entry read as an idle one. -/
def view (s : Registry) (name : String) : DrainState :=
  match s.drains.lookup name with
  | some ref => s.heap ref
  | none => {}

variable {s next : Registry} {name : String} {ref : StateRef} {st : DrainState}
  {guard : DispatchGuard} {atFence : List DispatchGuard}

theorem view_of_lookup (entry : s.drains.lookup name = some ref) : s.view name = s.heap ref := by
  simp [view, entry]

theorem view_of_absent (absent : s.drains.lookup name = none) : s.view name = {} := by
  simp [view, absent]

theorem isFenced_eq_view (s : Registry) (name : String) :
    s.isFenced name = (s.view name).fenced := by
  unfold isFenced view
  split <;> rfl

/-- Map entries refer to allocated objects, and no two names share one. -/
structure Separated (s : Registry) : Prop where
  allocated : ∀ {name ref}, s.drains.lookup name = some ref → ref < s.allocated
  distinct : ∀ {name other ref}, s.drains.lookup name = some ref →
    s.drains.lookup other = some ref → name = other

/-- Objects are separate, so a write to one changes the view at its name only. -/
theorem view_modify (separated : s.Separated) (entry : s.drains.lookup name = some ref)
    (f : DrainState → DrainState) :
    (s.modify ref f).view = update s.view name (f (s.view name)) := by
  funext other
  by_cases same : other = name
  · subst other
    simp [view, modify, entry]
  rw [update_of_ne same]
  cases found : s.drains.lookup other with
  | none => simp [view, modify, found]
  | some ref' =>
    have apart : ref' ≠ ref := by
      rintro rfl
      exact same (separated.distinct found entry)
    simp [view, modify, found, apart]

theorem view_insert (separated : s.Separated) (name : String) (st : DrainState) (count : Nat) :
    view { s with
      heap := update s.heap s.allocated st
      allocated := s.allocated + 1
      drains := s.drains.insert name s.allocated
      activeCount := count } = update s.view name st := by
  funext other
  by_cases same : other = name
  · subst other
    simp [view]
  rw [update_of_ne same]
  cases found : s.drains.lookup other with
  | none => simp [view, AList.lookup_insert_ne same, found]
  | some ref =>
    have apart : ref ≠ s.allocated := (separated.allocated found).ne
    simp [view, AList.lookup_insert_ne same, found, apart]

theorem view_erase (idle : s.view name = {}) :
    view { s with drains := s.drains.erase name } = s.view := by
  funext other
  by_cases same : other = name
  · subst other
    simp [view]
    simpa [view] using idle.symm
  · simp [view, AList.lookup_erase_ne same]

theorem Separated.modify (separated : s.Separated) (ref : StateRef) (f : DrainState → DrainState) :
    (s.modify ref f).Separated :=
  ⟨separated.allocated, separated.distinct⟩

/-- A fresh object is the entry of no other name. -/
theorem Separated.insert (separated : s.Separated) (name : String) (heap : StateRef → DrainState)
    (count : Nat) :
    Separated { s with
      heap := heap
      allocated := s.allocated + 1
      drains := s.drains.insert name s.allocated
      activeCount := count } := by
  have lookup_cases : ∀ {other ref}, (s.drains.insert name s.allocated).lookup other = some ref →
      (other = name ∧ ref = s.allocated) ∨ s.drains.lookup other = some ref := by
    intro other ref found
    by_cases same : other = name
    · subst other
      rw [AList.lookup_insert] at found
      exact .inl ⟨rfl, (Option.some.inj found).symm⟩
    · exact .inr ((AList.lookup_insert_ne same).symm.trans found)
  constructor
  · intro other ref found
    rcases lookup_cases found with ⟨-, rfl⟩ | old
    · exact Nat.lt_succ_self _
    · exact Nat.lt_succ_of_lt (separated.allocated old)
  · intro other another ref found found'
    rcases lookup_cases found with ⟨rfl, rfl⟩ | old <;>
      rcases lookup_cases found' with ⟨rfl, same⟩ | old'
    · rfl
    · exact absurd (separated.allocated old') (lt_irrefl _)
    · exact absurd (separated.allocated old) (same ▸ lt_irrefl _)
    · exact separated.distinct old old'

theorem Separated.erase (separated : s.Separated) (name : String) :
    Separated { s with drains := s.drains.erase name } := by
  have lookup_of_erase : ∀ {other ref}, (s.drains.erase name).lookup other = some ref →
      s.drains.lookup other = some ref := by
    intro other ref found
    by_cases same : other = name
    · subst other
      simp at found
    · exact (AList.lookup_erase_ne same).symm.trans found
  exact ⟨fun found => separated.allocated (lookup_of_erase found),
    fun found found' => separated.distinct (lookup_of_erase found) (lookup_of_erase found')⟩

/-- The invariant of the map alone: entries are separate objects, and an entry is kept only
while it is fenced, blocked or counts a call. -/
structure Tight (s : Registry) : Prop extends s.Separated where
  absent_of_idle : ∀ {name}, s.view name = {} → s.drains.lookup name = none

/-- What an operation may do to the map: the view changes at one name, and an object stays
the entry of its name for as long as that entry is needed. -/
structure Updates (s : Registry) (name : String) (st : DrainState) (next : Registry) :
    Prop where
  tight : next.Tight
  view_eq : next.view = update s.view name st
  persists : ∀ {other ref}, s.drains.lookup other = some ref → next.view other ≠ {} →
    next.drains.lookup other = some ref

/-- It is enough to look at the entry of the name that is updated. -/
theorem Updates.of_lookup (tight : s.Tight) (separated : next.Separated)
    (view_eq : next.view = update s.view name st)
    (others : ∀ {other}, other ≠ name → next.drains.lookup other = s.drains.lookup other)
    (absent : st = {} → next.drains.lookup name = none)
    (kept : ∀ {ref}, s.drains.lookup name = some ref → st ≠ {} →
      next.drains.lookup name = some ref) : s.Updates name st next := by
  refine ⟨⟨separated, ?_⟩, view_eq, ?_⟩
  · intro other idle
    rw [view_eq] at idle
    by_cases same : other = name
    · subst other
      exact absent (by simpa using idle)
    · rw [update_of_ne same] at idle
      exact (others same).trans (tight.absent_of_idle idle)
  · intro other ref found needed
    rw [view_eq] at needed
    by_cases same : other = name
    · subst other
      exact kept found (by simpa using needed)
    · exact (others same).trans found

variable {f : DrainState → DrainState}

theorem Updates.of_modify (tight : s.Tight) (entry : s.drains.lookup name = some ref)
    (needed : f (s.view name) ≠ {}) :
    s.Updates name (f (s.view name)) (s.modify ref f) :=
  .of_lookup tight (tight.toSeparated.modify ref f) (view_modify tight.toSeparated entry f)
    (fun _ => rfl) (absurd · needed) fun found _ => found

/-- An entry is erased with the write that makes it idle. -/
theorem Updates.of_erase (tight : s.Tight) (entry : s.drains.lookup name = some ref)
    (idle : f (s.view name) = {}) :
    s.Updates name (f (s.view name)) { s.modify ref f with drains := s.drains.erase name } := by
  have modified := view_modify tight.toSeparated entry f
  refine .of_lookup tight ((tight.toSeparated.modify ref f).erase name) ?_
    AList.lookup_erase_ne (fun _ => AList.lookup_erase _ _) fun _ needed => absurd idle needed
  rw [← modified]
  exact view_erase (s := s.modify ref f) (by rw [modified, update_self, idle])

theorem Updates.of_insert (tight : s.Tight) (absent : s.drains.lookup name = none)
    (needed : st ≠ {}) (count : Nat) :
    s.Updates name st { s with
      heap := update s.heap s.allocated st
      allocated := s.allocated + 1
      drains := s.drains.insert name s.allocated
      activeCount := count } :=
  .of_lookup tight (tight.toSeparated.insert name _ count)
    (view_insert tight.toSeparated name st count) AList.lookup_insert_ne (absurd · needed)
    fun found _ => by simp [absent] at found

theorem Updates.refl (tight : s.Tight) (name : String) : s.Updates name (s.view name) s :=
  ⟨tight, (update_eq_self name s.view).symm, fun found _ => found⟩

theorem Updates.withCounters (updates : s.Updates name st next) (count : Nat)
    (guards : List DispatchGuard) :
    s.Updates name st { next with activeCount := count, guards := guards } :=
  ⟨⟨⟨updates.tight.allocated, updates.tight.distinct⟩, updates.tight.absent_of_idle⟩,
    updates.view_eq, updates.persists⟩

theorem Updates.of_tryEmplace (tight : s.Tight) (name : String) (needed : f (s.view name) ≠ {}) :
    s.Updates name (f (s.view name)) ((s.tryEmplace name).1.modify (s.tryEmplace name).2 f) := by
  cases entry : s.drains.lookup name with
  | some ref =>
    simp only [tryEmplace, entry]
    exact .of_modify tight entry needed
  | none =>
    rw [view_of_absent entry] at needed ⊢
    have inserted := Updates.of_insert tight entry needed s.activeCount
    simpa [tryEmplace, entry, modify] using inserted

theorem lookup_of_fenced (fenced : (s.view name).fenced) :
    ∃ ref, s.drains.lookup name = some ref ∧ (s.heap ref).fenced := by
  cases entry : s.drains.lookup name with
  | none => simp [view_of_absent entry] at fenced
  | some ref => exact ⟨ref, rfl, view_of_lookup entry ▸ fenced⟩

/-- `begin_drain` raises the fence of its name. -/
theorem beginDrain_updates (tight : s.Tight) (name : String) :
    s.Updates name { s.view name with fenced := true } (s.beginDrain name).1 := by
  cases entry : s.drains.lookup name with
  | some ref =>
    have written := Updates.of_modify tight entry
      (f := fun st => { st with fenced := true }) (by simp)
    simp only [beginDrain, entry]
    split
    · exact written
    · exact written.withCounters _ s.guards
  | none =>
    simp only [beginDrain, entry, view_of_absent entry]
    exact .of_insert tight entry (by simp) _

/-- `end_drain` takes the fence and the block of its name away. -/
theorem endDrain_updates (tight : s.Tight) (name : String) :
    s.Updates name { s.view name with fenced := false, applicationBlocked := false }
      (s.endDrain name) := by
  cases entry : s.drains.lookup name with
  | none =>
    have unchanged := Updates.refl tight name
    simpa only [endDrain, entry, view_of_absent entry] using unchanged
  | some ref =>
    simp only [endDrain, entry, ← view_of_lookup entry]
    by_cases idle : (s.view name).inFlight = 0
    · have erased := Updates.of_erase tight entry
        (f := fun st => { st with fenced := false, applicationBlocked := false })
        (by simp [idle])
      rw [if_pos idle]
      split
      · exact erased.withCounters _ s.guards
      · exact erased
    · have written := Updates.of_modify tight entry
        (f := fun st => { st with fenced := false, applicationBlocked := false })
        (by simp [idle])
      rw [if_neg idle]
      split
      · exact written.withCounters _ s.guards
      · exact written

theorem blockApplication_updates (tight : s.Tight) (name : String) :
    s.Updates name { s.view name with applicationBlocked := true } (s.blockApplication name) :=
  .of_tryEmplace tight name (f := fun st => { st with applicationBlocked := true }) (by simp)

theorem tryEmplace_heap (s : Registry) (name : String) :
    (s.tryEmplace name).1.heap (s.tryEmplace name).2 = s.view name := by
  cases entry : s.drains.lookup name with
  | some | none => simp [tryEmplace, view, entry]

/-- At a fence the new guard is an empty one. -/
theorem construct_of_fenced (fenced : (s.view name).fenced) :
    s.construct name = ({ s with guards := {} :: s.guards }, {}) := by
  rcases lookup_of_fenced fenced with ⟨ref, entry, objectFenced⟩
  simp [construct, tryEmplace, entry, objectFenced]

/-- Without a fence the new guard is admitted and counted. -/
theorem construct_of_open (isOpen : (s.view name).fenced = false) :
    s.construct name =
      ({ (s.tryEmplace name).1.modify (s.tryEmplace name).2
            (fun st => { st with inFlight := st.inFlight + 1 }) with
          guards := ⟨name, some (s.tryEmplace name).2, true⟩ :: s.guards },
        ⟨name, some (s.tryEmplace name).2, true⟩) := by
  have guards : (s.tryEmplace name).1.guards = s.guards := by
    unfold tryEmplace
    split <;> rfl
  simp [construct, tryEmplace_heap, isOpen, guards]

theorem construct_guards (s : Registry) (name : String) :
    (s.construct name).1.guards = (s.construct name).2 :: s.guards := by
  cases fenced : (s.view name).fenced with
  | true => rw [construct_of_fenced fenced]
  | false => rw [construct_of_open fenced]

theorem name_construct (admitted : (s.construct name).2.wasAdmitted) :
    (s.construct name).2.name = name := by
  cases fenced : (s.view name).fenced with
  | true => simp [construct_of_fenced fenced] at admitted
  | false => simp [construct_of_open fenced]

theorem construct_updates (tight : s.Tight) (name : String) :
    ∃ st, s.Updates name st (s.construct name).1 ∧ st.fenced = (s.view name).fenced ∧
      st.inFlight = (s.view name).inFlight + if (s.construct name).2.wasAdmitted then 1 else 0 := by
  cases fenced : (s.view name).fenced with
  | true =>
    rw [construct_of_fenced fenced]
    exact ⟨s.view name, (Updates.refl tight name).withCounters _ _, fenced, rfl⟩
  | false =>
    rw [construct_of_open fenced]
    exact ⟨_, (Updates.of_tryEmplace tight name
      (f := fun st => { st with inFlight := st.inFlight + 1 }) (by simp)).withCounters _ _,
        fenced, rfl⟩

/-- A guard that goes counts its call down. -/
theorem releaseGuard_updates (tight : s.Tight) (holds : guard.state = some ref)
    (entry : s.drains.lookup guard.name = some ref) (running : 0 < (s.view guard.name).inFlight) :
    s.Updates guard.name
      { s.view guard.name with inFlight := (s.view guard.name).inFlight - 1 }
      (s.releaseGuard guard) := by
  simp only [releaseGuard, holds, ← view_of_lookup entry]
  have written : (s.modify ref fun st => { st with inFlight := st.inFlight - 1 }).heap ref =
      { s.view guard.name with inFlight := (s.view guard.name).inFlight - 1 } := by
    simp [modify, view_of_lookup entry]
  rw [written]
  split
  case isTrue last =>
    obtain ⟨one, unfenced, unblocked, -⟩ := last
    exact .of_erase tight entry (f := fun st => { st with inFlight := st.inFlight - 1 })
      (by simpa [one] using And.intro unfenced unblocked)
  case isFalse notLast =>
    refine .of_modify tight entry (f := fun st => { st with inFlight := st.inFlight - 1 }) ?_
    intro idle
    simp only [DrainState.mk.injEq] at idle
    exact notLast ⟨by omega, idle.2.1, idle.2.2, entry⟩

@[simp]
theorem releaseGuard_activeCount (s : Registry) (guard : DispatchGuard) :
    (s.releaseGuard guard).activeCount = s.activeCount := by
  unfold releaseGuard
  split
  · rfl
  · dsimp only
    split <;> rfl

def fencedNames (s : Registry) : Finset String :=
  s.drains.keys.toFinset.filter fun name => s.isFenced name

@[simp]
def liveGuards (s : Registry) (name : String) : List DispatchGuard :=
  s.guards.filter fun guard => guard.wasAdmitted && guard.name == name

theorem mem_fencedNames : name ∈ s.fencedNames ↔ (s.view name).fenced := by
  simp only [fencedNames, Finset.mem_filter, mem_toFinset, isFenced_eq_view, and_iff_right_iff_imp]
  intro fenced
  rcases lookup_of_fenced fenced with ⟨ref, entry, -⟩
  exact AList.lookup_isSome.mp (by simp [entry])

/-- An update changes the set of fenced names at its name. -/
theorem fencedNames_of_updates (updates : s.Updates name st next) :
    next.fencedNames =
      if st.fenced then insert name s.fencedNames else s.fencedNames.erase name := by
  ext other
  rw [mem_fencedNames, updates.view_eq]
  by_cases same : other = name
  · subst other
    split <;> simp_all
  · split <;> simp [same, mem_fencedNames]

/-- The invariant of the module: admitted guards hold the entries of their names, and both counters
count what they say. -/
structure Consistent (s : Registry) : Prop extends s.Tight where
  guard_holds : ∀ {guard}, guard ∈ s.guards → guard.wasAdmitted = true →
    ∃ ref, guard.state = some ref ∧ s.drains.lookup guard.name = some ref
  guard_empty : ∀ {guard}, guard ∈ s.guards → guard.wasAdmitted = false → guard.state = none
  counted : ∀ name, (s.view name).inFlight = (s.liveGuards name).length
  active : s.activeCount = s.fencedNames.card

theorem mem_liveGuards :
    guard ∈ s.liveGuards name ↔ guard ∈ s.guards ∧ guard.wasAdmitted ∧ guard.name = name := by
  simp

theorem Consistent.running (consistent : s.Consistent) (alive : guard ∈ s.guards)
    (admitted : guard.wasAdmitted) : 0 < (s.view guard.name).inFlight := by
  rw [consistent.counted]
  exact length_pos_of_mem (mem_liveGuards.mpr ⟨alive, admitted, rfl⟩)

def Attached (s : Registry) (guard : DispatchGuard) : Prop :=
  (guard.wasAdmitted = true → ∃ ref, guard.state = some ref ∧
    s.drains.lookup guard.name = some ref) ∧ (guard.wasAdmitted = false → guard.state = none)

/-- The number of fenced names changes by the fence of the name that is updated. -/
theorem Consistent.active_of_updates (consistent : s.Consistent)
    (updates : s.Updates name st next)
    (count : next.activeCount = s.activeCount + st.fenced.toNat - (s.view name).fenced.toNat) :
    next.activeCount = next.fencedNames.card := by
  rw [count, fencedNames_of_updates updates, consistent.active]
  by_cases held : (s.view name).fenced
  · have mem := mem_fencedNames.mpr held
    cases st.fenced <;> simp [held, mem]
  · have notMem := mt mem_fencedNames.mp held
    cases st.fenced <;> simp [held, notMem]

/-- An operation that updates the map keeps the guards it leaves alive attached to their
entries, provided the counts still match. -/
theorem Consistent.of_updates (consistent : s.Consistent) (updates : s.Updates name st next)
    (guards : ∀ {guard}, guard ∈ next.guards → guard ∈ s.guards ∨ next.Attached guard)
    (counted : ∀ other, (next.view other).inFlight = (next.liveGuards other).length)
    (active : next.activeCount = next.fencedNames.card) : next.Consistent := by
  refine ⟨updates.tight, ?_, fun mem => (guards mem).elim consistent.guard_empty And.right, counted,
    active⟩
  intro guard alive admitted
  rcases guards alive with old | new
  case inr => exact new.1 admitted
  rcases consistent.guard_holds old admitted with ⟨ref, holds, entry⟩
  refine ⟨ref, holds, updates.persists entry ?_⟩
  intro idle
  have some_live : 0 < (next.liveGuards guard.name).length :=
    length_pos_of_mem (mem_liveGuards.mpr ⟨alive, admitted, rfl⟩)
  rw [← counted, idle] at some_live
  exact absurd some_live (lt_irrefl _)

/-- An operation may not touch the guards and the number of calls of its name. Then the active
count has to follow the fence. -/
theorem Consistent.keep (consistent : s.Consistent) (updates : s.Updates name st next)
    (guards : next.guards = s.guards) (calls : st.inFlight = (s.view name).inFlight)
    (count : next.activeCount = s.activeCount + st.fenced.toNat - (s.view name).fenced.toNat) :
    next.Consistent := by
  refine consistent.of_updates updates (fun mem => .inl (guards ▸ mem)) ?_
    (consistent.active_of_updates updates count)
  intro other
  have live : next.liveGuards other = s.liveGuards other := by simp [guards]
  rw [live, ← consistent.counted, updates.view_eq]
  by_cases eq : other = name
  · subst other
    simp [calls]
  · simp [eq]

theorem empty_consistent : empty.Consistent where
  allocated := by simp [empty]
  distinct := by simp [empty]
  absent_of_idle := by simp [empty]
  guard_holds := by simp [empty]
  guard_empty := by simp [empty]
  counted := by simp [empty, view]
  active := rfl

@[simp]
theorem beginDrain_guards (s : Registry) (name : String) :
    (s.beginDrain name).1.guards = s.guards := by
  unfold beginDrain
  split
  · dsimp only
    split <;> rfl
  · rfl

theorem beginDrain_activeCount (s : Registry) (name : String) :
    (s.beginDrain name).1.activeCount = s.activeCount + 1 - (s.view name).fenced.toNat := by
  unfold beginDrain view
  split
  · dsimp only
    split <;> simp [modify, *]
  · rfl

theorem beginDrain_lookup (s : Registry) (name : String) :
    (s.beginDrain name).1.drains.lookup name = some (s.beginDrain name).2 := by
  cases entry : s.drains.lookup name with
  | some ref =>
    simp only [beginDrain, entry]
    split <;> exact entry
  | none => simp [beginDrain, entry]

theorem beginDrain_consistent (consistent : s.Consistent) (name : String) :
    (s.beginDrain name).1.Consistent :=
  consistent.keep (beginDrain_updates consistent.toTight name) (beginDrain_guards s name) rfl
    (beginDrain_activeCount s name)

@[simp]
theorem endDrain_guards (s : Registry) (name : String) : (s.endDrain name).guards = s.guards := by
  unfold endDrain
  split
  · rfl
  · dsimp only
    split <;> split <;> rfl

theorem endDrain_activeCount (s : Registry) (name : String) :
    (s.endDrain name).activeCount = s.activeCount - (s.view name).fenced.toNat := by
  unfold endDrain view
  split
  · simp_all
  · simp_all only
    split <;> split <;> simp [modify, *]

theorem endDrain_consistent (consistent : s.Consistent) (name : String) :
    (s.endDrain name).Consistent :=
  consistent.keep (endDrain_updates consistent.toTight name) (endDrain_guards s name) rfl
    (endDrain_activeCount s name)

theorem tryEmplace_frame (s : Registry) (name : String) :
    (s.tryEmplace name).1.guards = s.guards ∧
      (s.tryEmplace name).1.activeCount = s.activeCount := by
  unfold tryEmplace
  split <;> exact ⟨rfl, rfl⟩

theorem blockApplication_consistent (consistent : s.Consistent) (name : String) :
    (s.blockApplication name).Consistent :=
  consistent.keep (blockApplication_updates consistent.toTight name) (tryEmplace_frame s name).1 rfl
    ((tryEmplace_frame s name).2.trans (Nat.add_sub_cancel ..).symm)

theorem construct_attached (s : Registry) (name : String) :
    (s.construct name).1.Attached (s.construct name).2 := by
  cases fenced : (s.view name).fenced with
  | true => simp [Attached, construct_of_fenced fenced]
  | false =>
    rw [construct_of_open fenced]
    refine ⟨fun _ => ⟨_, rfl, ?_⟩, by simp⟩
    cases found : s.drains.lookup name <;> simp [tryEmplace, modify, found]

theorem construct_activeCount (s : Registry) (name : String) :
    (s.construct name).1.activeCount = s.activeCount := by
  cases fenced : (s.view name).fenced with
  | true => rw [construct_of_fenced fenced]
  | false =>
    rw [construct_of_open fenced]
    exact (tryEmplace_frame s name).2

theorem construct_consistent (consistent : s.Consistent) (name : String) :
    (s.construct name).1.Consistent := by
  rcases construct_updates consistent.toTight name with ⟨st, updates, fenced, inFlight⟩
  have guards := construct_guards s name
  refine consistent.of_updates updates ?_ ?_
    (consistent.active_of_updates updates (by simp [fenced, construct_activeCount]))
  · intro guard alive
    rcases mem_cons.mp (guards ▸ alive) with rfl | old
    · exact .inr (construct_attached s name)
    · exact .inl old
  · intro other
    rw [updates.view_eq, liveGuards, guards]
    cases admitted : (s.construct name).2.wasAdmitted with
    | false => by_cases same : other = name <;> simp_all [consistent.counted]
    | true =>
      have isName := name_construct admitted
      by_cases same : other = name
      · subst other
        simp [inFlight, admitted, isName, consistent.counted]
      · simp [same, admitted, isName, Ne.symm same, consistent.counted]

theorem liveGuards_destroy (s : Registry) (guard : DispatchGuard) (name : String) :
    (s.destroy guard).liveGuards name = (s.liveGuards name).erase guard :=
  erase_filter.symm

theorem Consistent.destroy_updates (consistent : s.Consistent) (alive : guard ∈ s.guards) :
    ∃ st, s.Updates guard.name st (s.destroy guard) ∧ st.fenced = (s.view guard.name).fenced ∧
      st.inFlight = (s.view guard.name).inFlight - if guard.wasAdmitted then 1 else 0 := by
  cases admitted : guard.wasAdmitted with
  | true =>
    rcases consistent.guard_holds alive admitted with ⟨ref, holds, entry⟩
    have released := releaseGuard_updates consistent.toTight holds entry
      (consistent.running alive admitted)
    exact ⟨_, released.withCounters _ _, rfl, rfl⟩
  | false =>
    have released : s.releaseGuard guard = s := by
      simp [releaseGuard, consistent.guard_empty alive admitted]
    refine ⟨s.view guard.name, ?_, rfl, rfl⟩
    rw [destroy, released]
    exact (Updates.refl consistent.toTight guard.name).withCounters _ _

theorem destroy_consistent (consistent : s.Consistent) (alive : guard ∈ s.guards) :
    (s.destroy guard).Consistent := by
  rcases consistent.destroy_updates alive with ⟨st, updates, fenced, inFlight⟩
  refine consistent.of_updates updates (fun mem => .inl (mem_of_mem_erase mem)) ?_
    (consistent.active_of_updates updates (by simp [fenced, destroy]))
  intro name
  rw [updates.view_eq, liveGuards_destroy, length_erase, ← consistent.counted]
  by_cases same : name = guard.name
  · subst name
    cases admitted : guard.wasAdmitted <;> simp [inFlight, admitted, alive]
  · simp [same, Ne.symm same]

/-- Every critical section keeps the invariant. -/
theorem step_consistent {operation : Operation} (consistent : s.Consistent)
    (step : system.step s operation next) : next.Consistent := by
  change s.apply operation = some next at step
  cases operation with
  | beginDrain name =>
    cases step
    exact beginDrain_consistent consistent name
  | endDrain name =>
    cases step
    exact endDrain_consistent consistent name
  | blockApplication name =>
    cases step
    exact blockApplication_consistent consistent name
  | construct name =>
    cases step
    exact construct_consistent consistent name
  | destroy guard =>
    simp only [apply] at step
    split at step
    · cases step
      exact destroy_consistent consistent ‹_›
    · simp at step

theorem reachable_consistent (reachable : system.Reachable s) : s.Consistent := by
  refine reachable.invariant Consistent ?_ step_consistent
  rintro _ rfl
  exact empty_consistent

/-- What a drain of a name relies on until `end_drain`: its object stays the fenced entry,
and the live guards of the name are among those that ran when the fence went up. -/
structure Draining (name : String) (ref : StateRef) (atFence : List DispatchGuard)
    (s : Registry) : Prop where
  consistent : s.Consistent
  entry : s.drains.lookup name = some ref
  fenced : (s.heap ref).fenced = true
  live : (s.liveGuards name).Sublist atFence

theorem Draining.view_fenced (draining : s.Draining name ref atFence) : (s.view name).fenced :=
  view_of_lookup draining.entry ▸ draining.fenced

/-- An update that leaves the fence up and admits nobody lets a drain go on. -/
theorem Draining.of_updates {other : String} (draining : s.Draining name ref atFence)
    (updates : s.Updates other st next) (consistent : next.Consistent)
    (kept : name = other → st.fenced)
    (live : (next.liveGuards name).Sublist (s.liveGuards name)) :
    next.Draining name ref atFence := by
  have fenced : (next.view name).fenced := by
    rw [updates.view_eq]
    by_cases same : name = other
    · subst same
      simpa using kept rfl
    · simpa [same] using draining.view_fenced
  have entry : next.drains.lookup name = some ref := by
    refine updates.persists draining.entry ?_
    intro idle
    simp [idle] at fenced
  exact ⟨consistent, entry, view_of_lookup entry ▸ fenced, live.trans draining.live⟩

theorem liveGuards_construct_of_fenced (fenced : (s.view name).fenced) (other : String) :
    (s.construct other).1.liveGuards name = s.liveGuards name := by
  by_cases otherFenced : (s.view other).fenced
  · simp [construct_of_fenced otherFenced]
  have apart : other ≠ name := by
    rintro rfl
    exact otherFenced fenced
  have isOpen : (s.view other).fenced = false := by simpa using otherFenced
  simp [construct_of_open isOpen, apart]

/-- No operation but `end_drain` of the name ends a drain. -/
theorem step_draining {operation : Operation} (draining : s.Draining name ref atFence)
    (kept : operation ≠ .endDrain name) (step : system.step s operation next) :
    next.Draining name ref atFence := by
  have consistent := draining.consistent
  have nextConsistent := step_consistent consistent step
  have tight := consistent.toTight
  change s.apply operation = some next at step
  cases operation with
  | beginDrain other =>
    cases step
    exact draining.of_updates (beginDrain_updates tight other) nextConsistent (fun _ => rfl)
      (by simp)
  | endDrain other =>
    cases step
    exact draining.of_updates (endDrain_updates tight other) nextConsistent
      (fun same => absurd (same ▸ rfl) kept) (by simp)
  | blockApplication other =>
    cases step
    have guards : (s.blockApplication other).guards = s.guards := (tryEmplace_frame s other).1
    exact draining.of_updates (blockApplication_updates tight other) nextConsistent
      (fun same => same ▸ draining.view_fenced) (by simp [guards])
  | construct other =>
    cases step
    rcases construct_updates tight other with ⟨st, updates, fenced, -⟩
    exact draining.of_updates updates nextConsistent
      (fun same => fenced.trans (same ▸ draining.view_fenced))
      (by rw [liveGuards_construct_of_fenced draining.view_fenced other])
  | destroy guard =>
    simp only [apply] at step
    split at step
    case isFalse => simp at step
    case isTrue alive =>
    cases step
    have live : ((s.destroy guard).liveGuards name).Sublist (s.liveGuards name) := by
      rw [liveGuards_destroy]
      exact erase_sublist
    rcases consistent.destroy_updates alive with ⟨st, updates, fenced, -⟩
    exact draining.of_updates updates nextConsistent
      (fun same => fenced.trans (same ▸ draining.view_fenced)) live

theorem beginDrain_draining (consistent : s.Consistent) (name : String) :
    (s.beginDrain name).1.Draining name (s.beginDrain name).2 (s.liveGuards name) where
  consistent := beginDrain_consistent consistent name
  entry := beginDrain_lookup s name
  fenced := by
    have updates := beginDrain_updates consistent.toTight name
    rw [← view_of_lookup (beginDrain_lookup s name), updates.view_eq, update_self]
  live := by simp

/-- From `begin_drain` on, a drain lasts until its `end_drain`. -/
theorem run_draining {t : Registry} {operations : List Operation} (consistent : s.Consistent)
    (run : system.Run (s.beginDrain name).1 operations t)
    (held : Operation.endDrain name ∉ operations) :
    t.Draining name (s.beginDrain name).2 (s.liveGuards name) := by
  refine run.history (fun operations t => Operation.endDrain name ∉ operations →
    t.Draining name (s.beginDrain name).2 (s.liveGuards name)) ?_ ?_ held
  · intro operations middle operation next draining step held
    simp only [mem_append, mem_singleton, not_or] at held
    exact step_draining (draining held.1) (Ne.symm held.2) step
  · intro _
    exact beginDrain_draining consistent name

/-- The count that `wait_for_zero` sees is the number of live guards. -/
theorem Draining.waitForZero_eq (draining : s.Draining name ref atFence) :
    s.waitForZero ref = (decide (s.liveGuards name = []), (s.liveGuards name).length) := by
  have counted := draining.consistent.counted name
  rw [view_of_lookup draining.entry] at counted
  simp [waitForZero, counted]

theorem construct_admitted_iff (s : Registry) (name : String) :
    (s.construct name).2.wasAdmitted ↔ s.isFenced name = false := by
  rw [isFenced_eq_view]
  cases fenced : (s.view name).fenced with
  | true => simp [construct_of_fenced fenced]
  | false => simp [construct_of_open fenced]

end Registry

/-- In every reachable state the active-drain counter is the number of fenced entries, admitted
guards hold the object that the map stores under their name, and an entry counts exactly the live
guards of its name. A guard is admitted only where there is no fence, and from `begin_drain` until
`end_drain` the object waits for exactly the guards still alive, all begun before. -/
theorem drain_tracks_live_guards {s : Registry} (reachable : system.Reachable s) :
    s.activeDrainCount = s.fencedNames.card ∧
      (∀ guard ∈ s.guards, guard.wasAdmitted = true →
        ∃ ref, guard.state = some ref ∧ s.drains.lookup guard.name = some ref ∧
          (s.heap ref).inFlight = (s.liveGuards guard.name).length) ∧
      (∀ name ref, s.drains.lookup name = some ref →
        (s.heap ref).inFlight = (s.liveGuards name).length ∧
          ((s.heap ref).fenced = true ∨ (s.heap ref).applicationBlocked = true ∨
            0 < (s.heap ref).inFlight)) ∧
      (∀ name, (s.construct name).2.wasAdmitted = true ↔ s.isFenced name = false) ∧
      (∀ name operations t, system.Run (s.beginDrain name).1 operations t →
        Operation.endDrain name ∉ operations →
        t.drains.lookup name = some (s.beginDrain name).2 ∧ t.isFenced name = true ∧
          t.waitForZero (s.beginDrain name).2 =
            (decide (t.liveGuards name = []), (t.liveGuards name).length) ∧
          (t.liveGuards name).Sublist (s.liveGuards name)) := by
  have consistent := Registry.reachable_consistent reachable
  have entryCounted : ∀ {name ref}, s.drains.lookup name = some ref →
      (s.heap ref).inFlight = (s.liveGuards name).length := by
    intro name ref entry
    rw [← Registry.view_of_lookup entry, consistent.counted]
  refine ⟨consistent.active, ?_, ?_, s.construct_admitted_iff, ?_⟩
  · intro guard alive admitted
    rcases consistent.guard_holds alive admitted with ⟨ref, holds, entry⟩
    exact ⟨ref, holds, entry, entryCounted entry⟩
  · intro name ref entry
    refine ⟨entryCounted entry, ?_⟩
    by_contra unneeded
    simp only [not_or, Bool.not_eq_true, not_lt, Nat.le_zero] at unneeded
    have idle : s.view name = {} := by
      rw [Registry.view_of_lookup entry, DrainState.mk.injEq]
      exact ⟨unneeded.2.2, unneeded.1, unneeded.2.1⟩
    simp [consistent.absent_of_idle idle] at entry
  · intro name operations t run held
    have draining := Registry.run_draining consistent run held
    exact ⟨draining.entry, t.isFenced_eq_view name ▸ draining.view_fenced,
      draining.waitForZero_eq, draining.live⟩

/-- A drain that begins after another was ended while a call was still running waits for
that call. -/
theorem drain_tracks_live_guards_reentered :
    let s := (((Registry.empty.construct "notes").1.beginDrain "notes").1).endDrain "notes"
    system.Reachable s ∧ s.activeDrainCount = s.fencedNames.card ∧
      (s.beginDrain "notes").1.waitForZero (s.beginDrain "notes").2 = (false, 1) := by
  intro s
  have reachable : system.Reachable s :=
    ⟨.empty, [.construct "notes", .beginDrain "notes", .endDrain "notes"], rfl,
      .step (.step (.step (.refl _) rfl) rfl) rfl⟩
  have tracked := drain_tracks_live_guards reachable
  refine ⟨reachable, tracked.1, ?_⟩
  rw [(tracked.2.2.2.2 "notes" [] _ (.refl _) (by simp)).2.2.1]
  decide

end Plinth.Capabilities.Drain
