import Plinth.Core.Transition

/-!
# The runtime pool

A pool keeps runtime entries that are free, lends them out, and destroys them. An entry whose
holder returns it while one of its callbacks still runs becomes a pending retirement, which a later
turn of its event loop destroys. A step is what one thread does under the lock of the pool, or one
turn of a retirement. Callers return an entry that they hold; a return that is refused because the
entry still executes changes nothing. A step that ends a call of `shutdown` carries its result.
-/

namespace Plinth.Js.RuntimePool

open Core List

structure Entry where
  id : ℕ
  transient : Bool := false
  /-- Its runtime and its context could be created. -/
  usable : Bool
  cancelled : Bool := false
deriving DecidableEq

inductive State where
  | running
  | stopping
  | stopped
deriving DecidableEq

/-- Where the `shutdown` that holds its mutex stands. -/
inductive Shutdown where
  | idle
  | draining
  | closing
deriving DecidableEq

structure Pool where
  capacity : ℕ
  freeList : List Entry
  /-- The number of entries created so far; they are numbered in this order. -/
  created : ℕ
  state : State := .running
  shutdown : Shutdown := .idle
  checkedOut : List Entry := []
  /-- The entries that pending retirements own. -/
  pending : List Entry := []
  /-- Retirements that have destroyed their entry and are still listed as pending. -/
  completing : ℕ := 0
  /-- The entries destroyed so far, once for each destruction. -/
  destroyed : List Entry := []
  /-- How many entries that are not transient were checked out when `rebuild` last ran. -/
  carried : ℕ := 0

def createEntries (created : ℕ) : List Bool → List Entry
  | [] => []
  | usable :: rest => { id := created, usable } :: createEntries (created + 1) rest

def Entry.isPooled (entry : Entry) : Bool := !entry.transient

def Entry.hasId (id : ℕ) (entry : Entry) : Bool := entry.id = id

open Entry (hasId isPooled)

namespace Pool

/-- The pool as constructed; each creation may fail. -/
def create (usable : List Bool) : Pool where
  capacity := usable.length
  freeList := createEntries 0 usable
  created := usable.length

variable (pool : Pool)

def hand (entry : Entry) : Pool :=
  if entry.usable then { pool with checkedOut := pool.checkedOut ++ [entry] }
  else { pool with destroyed := pool.destroyed ++ [entry] }

/-- `acquire`. Nothing reads whether an entry that could not be set up is transient. -/
def acquire (usable : Bool) : Pool :=
  if pool.state ≠ .running then pool
  else
    match pool.freeList.getLast? with
    | some entry => hand { pool with freeList := pool.freeList.dropLast } entry
    | none =>
      hand { pool with created := pool.created + 1 }
        { id := pool.created
          transient := pool.capacity ≤ pool.checkedOut.length
          usable }

def destroy (entry : Entry) : Pool :=
  { pool with
    checkedOut := pool.checkedOut.erase entry
    destroyed := pool.destroyed ++ [entry] }

/-- `release` of an entry that is not executing and has no callback running; `failed` when a limit
was exceeded, asynchronous work is left or the reset fails. -/
def release (entry : Entry) (failed : Bool) : Pool :=
  if pool.state ≠ .running ∨ entry.transient ∨ entry.cancelled ∨ failed then pool.destroy entry
  else
    { pool with
      checkedOut := pool.checkedOut.erase entry
      freeList := pool.freeList ++ [entry] }

def deferRetirement (entry : Entry) : Pool :=
  { pool with
    checkedOut := pool.checkedOut.erase entry
    pending := entry :: pool.pending }

def cancel (entry : Entry) : Pool :=
  { pool with
    checkedOut := pool.checkedOut.map fun other =>
      if other = entry then { other with cancelled := true } else other }

def finishOnLoop (entry : Entry) : Pool :=
  { pool with
    pending := pool.pending.erase entry
    completing := pool.completing + 1
    destroyed := pool.destroyed ++ [entry] }

def rebuild (usable : List Bool) : Pool :=
  if pool.state ≠ .running then pool
  else
    { pool with
      destroyed := pool.destroyed ++ pool.freeList
      freeList := createEntries pool.created usable
      created := pool.created + usable.length
      carried := pool.checkedOut.countP isPooled }

/-- `shutdown` up to the drain of the pending retirements. -/
def beginShutdown : Pool × Option Bool :=
  if pool.state = .stopped then (pool, some true)
  else if pool.checkedOut = [] then
    ({ pool with state := .stopping, shutdown := .draining }, none)
  else ({ pool with state := .stopping }, some false)

/-- The last part of `shutdown`, which destroys free entries from the back until its deadline; the
first `left` of them stay. -/
def closeFree (left : ℕ) : Pool × Option Bool :=
  let closed : Pool :=
    { pool with
      shutdown := .idle
      freeList := pool.freeList.take left
      destroyed := pool.destroyed ++ (pool.freeList.drop left).reverse }
  if closed.freeList = [] then ({ closed with state := .stopped }, some true)
  else (closed, some false)

def total (kind : Entry → Bool) : ℕ :=
  pool.freeList.countP kind + pool.checkedOut.countP kind + pool.pending.countP kind +
    pool.destroyed.countP kind

def pooled : ℕ := pool.freeList.countP isPooled + pool.checkedOut.countP isPooled

end Pool

inductive Step : Pool → Option Bool → Pool → Prop where
  | acquire {pool} (usable : Bool) : Step pool none (pool.acquire usable)
  | release {pool entry} (failed : Bool) (held : entry ∈ pool.checkedOut) :
      Step pool none (pool.release entry failed)
  | destroy {pool entry} (held : entry ∈ pool.checkedOut) : Step pool none (pool.destroy entry)
  | deferRetirement {pool entry} (held : entry ∈ pool.checkedOut) :
      Step pool none (pool.deferRetirement entry)
  | cancel {pool entry} (held : entry ∈ pool.checkedOut) : Step pool none (pool.cancel entry)
  | finishOnLoop {pool entry} (pending : entry ∈ pool.pending) :
      Step pool none (pool.finishOnLoop entry)
  | complete {pool : Pool} : Step pool none { pool with completing := pool.completing - 1 }
  /-- Every free entry has a context: `rebuild` frees it without a check. -/
  | rebuild {pool : Pool} {usable : List Bool} (size : usable.length = pool.capacity)
      (contexts : ∀ entry ∈ pool.freeList, entry.usable = true) :
      Step pool none (pool.rebuild usable)
  /-- Another `shutdown` holds the mutex for too long. -/
  | lockedOut {pool : Pool} (held : pool.shutdown ≠ .idle) : Step pool (some false) pool
  | beginShutdown {pool : Pool} (free : pool.shutdown = .idle) :
      Step pool pool.beginShutdown.2 pool.beginShutdown.1
  | drained {pool : Pool} (draining : pool.shutdown = .draining)
      (nothing : pool.pending.length + pool.completing = 0) :
      Step pool none { pool with shutdown := .closing }
  /-- The deadline passes, or the database clients do not shut down. -/
  | giveUp {pool : Pool} (stopping : pool.shutdown ≠ .idle) :
      Step pool (some false) { pool with shutdown := .idle }
  | closeFree {pool : Pool} (left : ℕ) (closing : pool.shutdown = .closing) :
      Step pool (pool.closeFree left).2 (pool.closeFree left).1

def system : TransitionSystem Pool (Option Bool) where
  initial pool := ∃ usable, pool = Pool.create usable
  step := Step

/-- What is counted while a thread holds some entries that are in none of the places. -/
structure Pool.Counts (pool : Pool) (loose : List Entry) : Prop where
  placed : ∀ id, pool.total (hasId id) + loose.countP (hasId id) =
    if id < pool.created then 1 else 0
  bounded : pool.pooled + loose.countP isPooled ≤ pool.capacity + pool.carried

structure Pool.Owned (pool : Pool) : Prop where
  counts : pool.Counts []
  stopping : pool.shutdown ≠ .idle → pool.state ≠ .running ∧ pool.checkedOut = []
  drained : pool.shutdown = .closing → pool.pending = []
  stopped : pool.state = .stopped → pool.freeList = [] ∧ pool.checkedOut = [] ∧ pool.pending = []

theorem countP_erase_of_mem {entries : List Entry} {entry : Entry} (mem : entry ∈ entries)
    (kind : Entry → Bool) :
    entries.countP kind = (entries.erase entry).countP kind + [entry].countP kind := by
  rw [(perm_cons_erase mem).countP_eq, countP_cons, countP_singleton]

theorem countP_createEntries (created id : ℕ) (usable : List Bool) :
    (createEntries created usable).countP (hasId id) =
      if created ≤ id ∧ id < created + usable.length then 1 else 0 := by
  induction usable generalizing created with
  | nil => simp [createEntries]
  | cons head rest ih =>
    simp only [createEntries, countP_cons, ih, hasId, length_cons, decide_eq_true_eq]
    split_ifs <;> omega

theorem pooled_createEntries (created : ℕ) (usable : List Bool) :
    (createEntries created usable).countP isPooled = usable.length := by
  induction usable generalizing created with
  | nil => rfl
  | cons head rest ih => simpa [createEntries, isPooled] using ih (created + 1)

namespace Pool

variable {pool next : Pool} {entry : Entry}

/-- Entries may move between the lists. -/
theorem Counts.move {loose rest : List Entry} (counts : pool.Counts loose)
    (created : next.created = pool.created) (capacity : next.capacity = pool.capacity)
    (carried : next.carried = pool.carried)
    (total : ∀ kind, next.total kind + rest.countP kind = pool.total kind + loose.countP kind)
    (pooled : next.pooled + rest.countP isPooled ≤
      pool.pooled + loose.countP isPooled) : next.Counts rest where
  placed id := by rw [total, created, counts.placed]
  bounded := by
    rw [capacity, carried]
    exact Nat.le_trans pooled counts.bounded

theorem Counts.take (counts : pool.Counts []) (held : entry ∈ pool.checkedOut) :
    Counts { pool with checkedOut := pool.checkedOut.erase entry } [entry] := by
  have erased := countP_erase_of_mem held
  refine counts.move rfl rfl rfl (fun kind => ?_) ?_
  · simp only [total, erased, countP_nil]
    omega
  · simp only [pooled, erased, countP_nil]
    omega

theorem Counts.takeFree (counts : pool.Counts []) {rest : List Entry}
    (last : pool.freeList = rest ++ [entry]) :
    Counts { pool with freeList := rest } [entry] := by
  refine counts.move rfl rfl rfl (fun kind => ?_) ?_
  · simp only [total, last, countP_append, countP_nil]
    omega
  · simp only [pooled, last, countP_append, countP_nil]
    omega

theorem Counts.createEntry (counts : pool.Counts []) (empty : pool.freeList = []) (usable : Bool) :
    Counts { pool with created := pool.created + 1 }
      [{ id := pool.created
         transient := pool.capacity ≤ pool.checkedOut.length
         usable }] where
  placed id := by
    have placed := counts.placed id
    simp only [total, countP_singleton, countP_nil, hasId, decide_eq_true_eq] at placed ⊢
    split_ifs at placed ⊢ <;> omega
  bounded := by
    have bounded := counts.bounded
    have few : pool.checkedOut.countP isPooled ≤ pool.checkedOut.length :=
      countP_le_length
    simp only [pooled, empty, countP_nil, countP_singleton] at bounded ⊢
    by_cases full : pool.capacity ≤ pool.checkedOut.length <;> simp [isPooled, full] <;> omega

section

variable (counts : pool.Counts [entry])
include counts

theorem Counts.putDestroyed : Counts { pool with destroyed := pool.destroyed ++ [entry] } [] := by
  refine counts.move rfl rfl rfl (fun kind => ?_) (Nat.le_add_right _ _)
  simp only [total, countP_append, countP_nil]
  omega

theorem Counts.putFree : Counts { pool with freeList := pool.freeList ++ [entry] } [] := by
  refine counts.move rfl rfl rfl (fun kind => ?_) ?_
  · simp only [total, countP_append, countP_nil]
    omega
  · simp only [pooled, countP_append, countP_nil]
    omega

theorem Counts.putPending : Counts { pool with pending := entry :: pool.pending } [] := by
  refine counts.move rfl rfl rfl (fun kind => ?_) (Nat.le_add_right _ _)
  simp only [total, countP_cons, countP_nil]
  omega

/-- Handing out an entry leaves none loose. -/
theorem Counts.hand : (pool.hand entry).Counts [] := by
  rw [Pool.hand]
  split
  · refine counts.move rfl rfl rfl (fun kind => ?_) ?_
    · simp only [total, countP_append, countP_nil]
      omega
    · simp only [pooled, countP_append, countP_nil]
      omega
  · exact counts.putDestroyed

end

namespace Owned

variable (owned : pool.Owned)

theorem of_counts {next : Pool} (counts : next.Counts []) (idle : next.shutdown = .idle)
    (opened : next.state ≠ .stopped) : next.Owned :=
  ⟨counts, by simp [idle], by simp [idle], fun stopped => absurd stopped opened⟩

include owned

theorem idle_of_running (running : pool.state = .running) : pool.shutdown = .idle := by
  by_contra busy
  exact (owned.stopping busy).1 running

theorem idle_of_held (held : entry ∈ pool.checkedOut) :
    pool.shutdown = .idle ∧ pool.state ≠ .stopped := by
  constructor
  · by_contra busy
    simp [(owned.stopping busy).2] at held
  · intro stopped
    simp [(owned.stopped stopped).2.1] at held

theorem acquire (usable : Bool) : (pool.acquire usable).Owned := by
  rw [Pool.acquire]
  split
  case isTrue => exact owned
  case isFalse running =>
  have running : pool.state = .running := by simpa using running
  have idle := owned.idle_of_running running
  have opened : pool.state ≠ .stopped := by simp [running]
  rcases eq_nil_or_concat pool.freeList with empty | ⟨rest, last, isLast⟩
  · have nothing : pool.freeList.getLast? = none := by simp [empty]
    rw [nothing]
    apply of_counts (owned.counts.createEntry empty usable).hand
    all_goals cases usable <;> assumption
  · rw [concat_eq_append] at isLast
    have found : pool.freeList.getLast? = some last := by simp [isLast]
    have others : pool.freeList.dropLast = rest := by simp [isLast]
    rw [found, others]
    apply of_counts (owned.counts.takeFree isLast).hand
    all_goals cases isUsable : last.usable <;> simpa [hand, isUsable]

section

variable (held : entry ∈ pool.checkedOut)
include held

theorem destroy : (pool.destroy entry).Owned :=
  of_counts (owned.counts.take held).putDestroyed (owned.idle_of_held held).1
    (owned.idle_of_held held).2

theorem release (failed : Bool) : (pool.release entry failed).Owned := by
  rw [Pool.release]
  split
  · exact owned.destroy held
  · exact of_counts (owned.counts.take held).putFree (owned.idle_of_held held).1
      (owned.idle_of_held held).2

theorem deferRetirement : (pool.deferRetirement entry).Owned :=
  of_counts (owned.counts.take held).putPending (owned.idle_of_held held).1
    (owned.idle_of_held held).2

theorem cancel : (pool.cancel entry).Owned := by
  have same (kind : Entry → Bool)
      (blind : ∀ other : Entry, kind { other with cancelled := true } = kind other) :
      (pool.cancel entry).checkedOut.countP kind = pool.checkedOut.countP kind := by
    rw [Pool.cancel, countP_map]
    congr 1
    funext other
    simp only [Function.comp_apply]
    split <;> simp [blind]
  refine of_counts ⟨fun id => ?_, ?_⟩ (owned.idle_of_held held).1 (owned.idle_of_held held).2
  · rw [total, same (hasId id) fun _ => rfl]
    exact owned.counts.placed id
  · rw [pooled, same isPooled fun _ => rfl]
    exact owned.counts.bounded

end

theorem finishOnLoop (pending : entry ∈ pool.pending) : (pool.finishOnLoop entry).Owned := by
  refine ⟨owned.counts.move rfl rfl rfl (fun kind => ?_) (Nat.le_refl _), owned.stopping, ?_, ?_⟩
  · simp only [total, Pool.finishOnLoop, countP_append, countP_erase_of_mem pending]
    omega
  · intro closing
    simp [owned.drained closing] at pending
  · intro stopped
    simp [(owned.stopped stopped).2.2] at pending

theorem rebuild {usable : List Bool} (size : usable.length = pool.capacity) :
    (pool.rebuild usable).Owned := by
  rw [Pool.rebuild]
  split
  case isTrue => exact owned
  case isFalse running =>
  have running : pool.state = .running := by simpa using running
  refine of_counts ⟨fun id => ?_, ?_⟩ (owned.idle_of_running running) (by simp [running])
  · have placed := owned.counts.placed id
    simp only [total, countP_append, countP_createEntries] at placed ⊢
    split_ifs at placed ⊢ <;> omega
  · simp [pooled, pooled_createEntries, size]

theorem beginShutdown (free : pool.shutdown = .idle) : pool.beginShutdown.1.Owned := by
  rw [Pool.beginShutdown]
  split_ifs with stopped empty
  · exact owned
  · exact ⟨⟨owned.counts.placed, owned.counts.bounded⟩, by simp [empty], by simp, by simp⟩
  · exact of_counts ⟨owned.counts.placed, owned.counts.bounded⟩ free (by simp)

theorem closeFree (left : ℕ) (closing : pool.shutdown = .closing) :
    (pool.closeFree left).1.Owned := by
  have none := owned.drained closing
  have held := (owned.stopping (by simp [closing])).2
  have split := take_append_drop left pool.freeList
  have counts : Counts { pool with
      shutdown := .idle
      freeList := pool.freeList.take left
      destroyed := pool.destroyed ++ (pool.freeList.drop left).reverse } [] := by
    refine owned.counts.move rfl rfl rfl (fun kind => ?_) ?_
    · have parts := congrArg (List.countP kind) split
      simp only [total, countP_append, countP_reverse] at parts ⊢
      omega
    · have parts := congrArg (List.countP isPooled) split
      simp only [pooled, countP_append] at parts ⊢
      omega
  rw [Pool.closeFree]
  dsimp only
  split
  case isTrue empty =>
    exact ⟨⟨counts.placed, counts.bounded⟩, by simp, by simp, fun _ => ⟨empty, held, none⟩⟩
  case isFalse left =>
    refine of_counts counts rfl fun stopped => ?_
    simp [(owned.stopped stopped).1] at left

end Owned

end Pool

/-- Every step keeps each entry in one list. -/
theorem Step.owned {pool next : Pool} {result : Option Bool} (step : Step pool result next)
    (owned : pool.Owned) : next.Owned := by
  cases step with
  | acquire usable => exact owned.acquire usable
  | release failed held => exact owned.release held failed
  | destroy held => exact owned.destroy held
  | deferRetirement held => exact owned.deferRetirement held
  | cancel held => exact owned.cancel held
  | finishOnLoop pending => exact owned.finishOnLoop pending
  | complete => exact { owned with counts := ⟨owned.counts.placed, owned.counts.bounded⟩ }
  | rebuild size => exact owned.rebuild size
  | lockedOut => exact owned
  | beginShutdown free => exact owned.beginShutdown free
  | drained draining nothing =>
    refine { owned with
      counts := ⟨owned.counts.placed, owned.counts.bounded⟩
      stopping := fun _ => owned.stopping (by simp [draining])
      drained := fun _ => ?_ }
    exact length_eq_zero_iff.mp (Nat.eq_zero_of_add_eq_zero_right nothing)
  | giveUp =>
    exact { owned with
      counts := ⟨owned.counts.placed, owned.counts.bounded⟩
      stopping := by simp
      drained := by simp }
  | closeFree left closing => exact owned.closeFree left closing

theorem Pool.owned_of_reachable {pool : Pool} (reached : system.Reachable pool) : pool.Owned := by
  rcases reached with ⟨_, results, ⟨usable, rfl⟩, run⟩
  refine run.preserves Pool.Owned (fun owned step => Step.owned step owned) ?_
  refine .of_counts ⟨fun id => ?_, ?_⟩ rfl (by simp [create])
  · change (create usable).total _ + 0 = if id < usable.length then 1 else 0
    simp [total, create, countP_createEntries]
  · simp [pooled, create, pooled_createEntries]

/-- A shutdown that succeeds has stopped the pool. -/
theorem Step.stopped_of_success {pool next : Pool} {result : Option Bool}
    (step : Step pool result next) (success : result = some true) : next.state = .stopped := by
  cases step with
  | beginShutdown =>
    revert success
    rw [Pool.beginShutdown]
    split_ifs with stopped empty
    · exact fun _ => stopped
    · simp
    · simp
  | closeFree left =>
    revert success
    rw [Pool.closeFree]
    dsimp only
    split
    · exact fun _ => rfl
    · simp
  | _ => simp at success

/-- Each entry is in one place and destroyed once, no entry has two holders, and a `shutdown` that
reports success leaves none. The free and checked out entries that are not transient are at most the
pool's capacity and those lent out when `rebuild` last ran. -/
theorem runtimePool_owned {pool : Pool} (reached : system.Reachable pool) :
    (∀ id, pool.total (hasId id) = if id < pool.created then 1 else 0) ∧
      pool.pooled ≤ pool.capacity + pool.carried ∧
      ∀ next, Step pool (some true) next →
        next.freeList = [] ∧ next.checkedOut = [] ∧ next.pending = [] := by
  have owned := Pool.owned_of_reachable reached
  refine ⟨owned.counts.placed, owned.counts.bounded, ?_⟩
  intro next step
  exact (Step.owned step owned).stopped (Step.stopped_of_success step rfl)

/-- The pool is rebuilt while one of its entries is lent out and the other is a pending retirement;
then both come back and the pool is shut down. -/
theorem onePool_owned : ∃ pool next : Pool, system.Reachable pool ∧ Step pool (some true) next ∧
    next.destroyed.map Entry.id = [1, 0, 3, 2] ∧ pool.total (hasId 1) = 1 ∧ next.freeList = [] := by
  have reached : system.Reachable _ :=
    ⟨_, _, ⟨[true, true], rfl⟩, .head (.acquire true) <| .head (.acquire true) <|
      .head (@Step.deferRetirement _ { id := 1, usable := true } (by decide)) <|
      .head (@Step.rebuild _ [true, true] rfl (by decide)) <|
      .head (@Step.release _ { id := 0, usable := true } false (by decide)) <|
      .head (@Step.finishOnLoop _ { id := 1, usable := true } (by decide)) <| .head .complete <|
      .head (.beginShutdown rfl) <| .head (.drained rfl rfl) <| .refl _⟩
  have owned := runtimePool_owned reached
  exact ⟨_, _, reached, .closeFree 0 rfl, rfl, owned.1 1, (owned.2.2 _ (.closeFree 0 rfl)).1⟩

/-- A pool of one entry that is rebuilt while the entry is lent out. -/
theorem rebuilt_exceeds_capacity :
    ¬ ∀ pool : Pool, system.Reachable pool → pool.pooled ≤ pool.capacity := by
  intro bounded
  have reached : system.Reachable _ :=
    ⟨_, _, ⟨[true], rfl⟩, .head (.acquire false) <|
      .head (@Step.rebuild _ [true] rfl (by decide)) <| .refl _⟩
  exact absurd (bounded _ reached) (by decide)

end Plinth.Js.RuntimePool
