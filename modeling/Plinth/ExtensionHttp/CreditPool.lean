import Plinth.Core.Live
import Plinth.Core.Transition
import Plinth.ExtensionHttp.Text

/-!
# Credits of HTTP requests

Every request of an extension holds a lease on the credits of the feature and of its package, and
charges for the memory that it needs besides. A lease lives as long as something refers to it: the
handles of the admission, which are copied and dropped, or one of its charges, which are moved from
owner to owner and can outlive the handles. The counters of the pool are changed under its mutex,
when a lease is admitted and when its destructor runs.
-/

namespace Plinth.ExtensionHttp

open Core Core.TransitionSystem Function

def packageTasks : ℕ := 4

def featureTasks : ℕ := 8

def extraBytesPerLease : ℕ := 96 * 1024 * 1024

def ownerBookkeepingBytes : ℕ := 4096

def packageTransportBytes : ℕ := 256 * 1024 * 1024

def featureTransportBytes : ℕ := 512 * 1024 * 1024

def chargeOverhead : ℕ := 24

def validName (text : Bytes) : Bool :=
  2 ≤ text.length && text.length ≤ 64 && text.head?.any lowerAlpha &&
    text.all fun c => lowerAlpha c || digit c || c = '-'.toUInt8

structure CreditSnapshot where
  tasks : ℕ := 0
  borrowedTransportBytes : ℕ := 0
  reservedExtraBytes : ℕ := 0

structure Package where
  name : Bytes := []
  tasks : ℕ := 0
  transport : ℕ := 0

/-- The state that handles and charges share, with the package it was admitted for and the number
of handles. -/
structure LeaseState where
  slot : Fin featureTasks
  name : Bytes
  transport : ℕ
  extra : ℕ := ownerBookkeepingBytes
  handles : ℕ := 1

structure Charge where
  lease : ℕ
  charged : ℕ

structure CreditPool where
  accepting : Bool
  totals : CreditSnapshot
  packages : Fin featureTasks → Package
  leases : Live ℕ LeaseState
  charges : Live ℕ Charge

namespace CreditPool

section Operations

variable (pool : CreditPool)

/-- The loop over the slots: the slot of the package, or else the first free one. -/
def findSlotFrom (packages : Fin featureTasks → Package) (name : Bytes) :
    Option (Fin featureTasks) → List (Fin featureTasks) → Option (Fin featureTasks)
  | slot, [] => slot
  | slot, index :: indices =>
    if (packages index).tasks ≠ 0 ∧ (packages index).name = name then some index
    else if (packages index).tasks = 0 ∧ slot = none then
      findSlotFrom packages name (some index) indices
    else findSlotFrom packages name slot indices

def findSlot (name : Bytes) : Option (Fin featureTasks) :=
  findSlotFrom pool.packages name none (List.finRange featureTasks)

def admits (process : Bool) (name : Bytes) (transport : ℕ) : Option (Fin featureTasks) :=
  if !process || !validName name || packageTransportBytes < transport then none
  else if !pool.accepting || pool.totals.tasks = featureTasks ||
      featureTransportBytes - pool.totals.borrowedTransportBytes < transport then none
  else
    (pool.findSlot name).filter fun slot =>
      (pool.packages slot).tasks ≠ packageTasks &&
        transport ≤ packageTransportBytes - (pool.packages slot).transport

/-- `try_acquire` after the checks; the new lease has one handle. -/
def grant (id : ℕ) (name : Bytes) (transport : ℕ) (slot : Fin featureTasks) : CreditPool :=
  let package := pool.packages slot
  { pool with
    leases := pool.leases.add id { slot, name, transport }
    packages := update pool.packages slot
      { name := if package.tasks = 0 then name else package.name
        tasks := package.tasks + 1
        transport := package.transport + transport }
    totals :=
      { tasks := pool.totals.tasks + 1
        borrowedTransportBytes := pool.totals.borrowedTransportBytes + transport
        reservedExtraBytes := pool.totals.reservedExtraBytes + extraBytesPerLease } }

/-- `~HttpLeaseState`. -/
def destroy (id : ℕ) : CreditPool :=
  let lease := pool.leases.item id
  let package := pool.packages lease.slot
  { pool with
    leases := pool.leases.remove id
    packages := update pool.packages lease.slot
      { name := if package.tasks - 1 = 0 then [] else package.name
        tasks := package.tasks - 1
        transport := package.transport - lease.transport }
    totals :=
      { tasks := pool.totals.tasks - 1
        borrowedTransportBytes := pool.totals.borrowedTransportBytes - lease.transport
        reservedExtraBytes := pool.totals.reservedExtraBytes - extraBytesPerLease } }

def setLease (id : ℕ) (lease : LeaseState) : CreditPool :=
  { pool with leases := pool.leases.set id lease }

def chargeFor (lease : LeaseState) (payloadBytes : ℕ) : Option ℕ :=
  if payloadBytes = 0 || extraBytesPerLease - chargeOverhead < payloadBytes then none
  else if extraBytesPerLease - lease.extra < payloadBytes + chargeOverhead then none
  else some (payloadBytes + chargeOverhead)

def reserve (id charge bytes : ℕ) : CreditPool :=
  let lease := pool.leases.item id
  { pool with
    leases := pool.leases.set id { lease with extra := lease.extra + bytes }
    charges := pool.charges.add charge ⟨id, bytes⟩ }

def move (source target : ℕ) : CreditPool :=
  { pool with charges := (pool.charges.remove source).add target (pool.charges.item source) }

def release (charge : ℕ) : CreditPool :=
  let held := pool.charges.item charge
  let lease := pool.leases.item held.lease
  { pool with
    leases := pool.leases.set held.lease { lease with extra := lease.extra - held.charged }
    charges := pool.charges.remove charge }

end Operations

inductive Action where
  | tryAcquire (id : ℕ) (process : Bool) (name : Bytes) (transport : ℕ)
  | copy (id : ℕ)
  | drop (id : ℕ)
  | reserveExtra (id charge payloadBytes : ℕ)
  | move (source target : ℕ)
  | release (charge : ℕ)
  | destroy (id : ℕ)
  | close
  /-- The wait of `drain` is over and it returns true. -/
  | drained

/-- A new object is at a fresh address. Whoever drops the last reference to a lease destroys it, but
other threads can take the mutex before. -/
inductive Step : CreditPool → Action → CreditPool → Prop where
  | admitted {pool id process name transport slot} (fresh : id ∉ pool.leases.ids)
      (admits : pool.admits process name transport = some slot) :
      Step pool (.tryAcquire id process name transport) (pool.grant id name transport slot)
  | refused {pool id process name transport} (refuses : pool.admits process name transport = none) :
      Step pool (.tryAcquire id process name transport) pool
  | copy {pool id} (live : id ∈ pool.leases.ids) (held : 0 < (pool.leases.item id).handles) :
      Step pool (.copy id) (pool.setLease id
        { pool.leases.item id with handles := (pool.leases.item id).handles + 1 })
  | drop {pool id} (live : id ∈ pool.leases.ids) (held : 0 < (pool.leases.item id).handles) :
      Step pool (.drop id) (pool.setLease id
        { pool.leases.item id with handles := (pool.leases.item id).handles - 1 })
  | reserved {pool id charge payload bytes} (live : id ∈ pool.leases.ids)
      (held : 0 < (pool.leases.item id).handles) (fresh : charge ∉ pool.charges.ids)
      (fits : chargeFor (pool.leases.item id) payload = some bytes) :
      Step pool (.reserveExtra id charge payload) (pool.reserve id charge bytes)
  | unreserved {pool id charge payload} (live : id ∈ pool.leases.ids)
      (held : 0 < (pool.leases.item id).handles)
      (full : chargeFor (pool.leases.item id) payload = none) :
      Step pool (.reserveExtra id charge payload) pool
  | move {pool source target} (held : source ∈ pool.charges.ids)
      (empty : target ∉ pool.charges.ids) :
      Step pool (.move source target) (pool.move source target)
  | release {pool charge} (held : charge ∈ pool.charges.ids) :
      Step pool (.release charge) (pool.release charge)
  | destroy {pool id} (live : id ∈ pool.leases.ids) (dropped : (pool.leases.item id).handles = 0)
      (uncharged : ∀ charge ∈ pool.charges.ids, (pool.charges.item charge).lease ≠ id) :
      Step pool (.destroy id) (pool.destroy id)
  | close {pool} : Step pool .close { pool with accepting := false }
  | drained {pool} (closed : pool.accepting = false) (none : pool.totals.tasks = 0) :
      Step pool .drained pool

/-- The values at addresses without an object are of no account. -/
def new : CreditPool :=
  ⟨true, {}, fun _ => {}, ⟨∅, fun _ => ⟨⟨0, by decide⟩, [], 0, 0, 0⟩⟩, ⟨∅, fun _ => ⟨0, 0⟩⟩⟩

def system : TransitionSystem CreditPool Action where
  initial pool := pool = new
  step := Step

@[simp]
def slotTasks (slot : Fin featureTasks) (lease : LeaseState) : ℕ :=
  if lease.slot = slot then 1 else 0

@[simp]
def slotTransport (slot : Fin featureTasks) (lease : LeaseState) : ℕ :=
  if lease.slot = slot then lease.transport else 0

def chargedTo (id : ℕ) (charge : Charge) : ℕ := if charge.lease = id then charge.charged else 0

structure Accounted (pool : CreditPool) : Prop where
  tasks : pool.totals.tasks = pool.leases.total fun _ => 1
  transport : pool.totals.borrowedTransportBytes = pool.leases.total LeaseState.transport
  extra : pool.totals.reservedExtraBytes = pool.leases.total fun _ => extraBytesPerLease
  slotTasks : ∀ slot, (pool.packages slot).tasks = pool.leases.total (slotTasks slot)
  slotTransport : ∀ slot, (pool.packages slot).transport = pool.leases.total (slotTransport slot)
  slotName : ∀ id ∈ pool.leases.ids,
    (pool.packages (pool.leases.item id).slot).name = (pool.leases.item id).name
  distinct : ∀ first second, (pool.packages first).tasks ≠ 0 → (pool.packages second).tasks ≠ 0 →
    (pool.packages first).name = (pool.packages second).name → first = second
  leaseExtra : ∀ id ∈ pool.leases.ids, (pool.leases.item id).extra =
    ownerBookkeepingBytes + pool.charges.total (chargedTo id)
  charged : ∀ charge ∈ pool.charges.ids, (pool.charges.item charge).lease ∈ pool.leases.ids

structure Limited (pool : CreditPool) : Prop where
  tasks : pool.totals.tasks ≤ featureTasks
  transport : pool.totals.borrowedTransportBytes ≤ featureTransportBytes
  slotTasks : ∀ slot, (pool.packages slot).tasks ≤ packageTasks
  slotTransport : ∀ slot, (pool.packages slot).transport ≤ packageTransportBytes
  leaseExtra : ∀ id ∈ pool.leases.ids, (pool.leases.item id).extra ≤ extraBytesPerLease

variable {pool next : CreditPool} {action : Action} {slot : Fin featureTasks} {id : ℕ}

/-- A slot found is the package's, or free where it has none. -/
theorem findSlotFrom_eq_some {packages : Fin featureTasks → Package} {name : Bytes}
    {indices : List (Fin featureTasks)} {candidate : Option (Fin featureTasks)}
    (free : ∀ index ∈ candidate, (packages index).tasks = 0)
    (found : findSlotFrom packages name candidate indices = some slot) :
    ((packages slot).tasks ≠ 0 ∧ (packages slot).name = name) ∨
      ((packages slot).tasks = 0 ∧
        ∀ index ∈ indices, (packages index).tasks ≠ 0 → (packages index).name ≠ name) := by
  induction indices generalizing candidate with
  | nil => exact .inr ⟨free slot found, by simp⟩
  | cons index indices ih =>
    rw [findSlotFrom] at found
    split at found
    case isTrue taken =>
      cases found
      exact .inl taken
    case isFalse notTaken =>
      have later : ∃ candidate, (∀ index ∈ candidate, (packages index).tasks = 0) ∧
          findSlotFrom packages name candidate indices = some slot := by
        split at found
        case isTrue isFirst => exact ⟨_, by simpa using isFirst.1, found⟩
        case isFalse => exact ⟨_, free, found⟩
      rcases later with ⟨candidate, free, found⟩
      refine (ih free found).imp_right fun ⟨isFree, others⟩ => ⟨isFree, ?_⟩
      rw [List.forall_mem_cons]
      exact ⟨fun occupied same => notTaken ⟨occupied, same⟩, others⟩

structure Admitted (pool : CreditPool) (name : Bytes) (transport : ℕ) (slot : Fin featureTasks) :
    Prop where
  accepting : pool.accepting = true
  tasks : pool.totals.tasks ≠ featureTasks
  fits : transport ≤ featureTransportBytes - pool.totals.borrowedTransportBytes
  chosen : ((pool.packages slot).tasks ≠ 0 ∧ (pool.packages slot).name = name) ∨
    ((pool.packages slot).tasks = 0 ∧
      ∀ other, (pool.packages other).tasks ≠ 0 → (pool.packages other).name ≠ name)
  slotTasks : (pool.packages slot).tasks ≠ packageTasks
  slotFits : transport ≤ packageTransportBytes - (pool.packages slot).transport

theorem admitted_of_admits {process : Bool} {name : Bytes} {transport : ℕ}
    (admits : pool.admits process name transport = some slot) :
    pool.Admitted name transport slot := by
  rw [CreditPool.admits] at admits
  split at admits
  case isTrue => cases admits
  split at admits
  case isTrue => cases admits
  case isFalse guards =>
  simp only [Bool.or_eq_true, Bool.not_eq_true', decide_eq_true_eq, not_or, Bool.not_eq_false,
    not_lt] at guards
  rcases Option.filter_eq_some_iff.mp admits with ⟨found, room⟩
  simp only [ne_eq, Bool.and_eq_true, decide_eq_true_eq] at room
  refine ⟨guards.1.1, guards.1.2, guards.2, ?_, room.1, room.2⟩
  simpa using findSlotFrom_eq_some (by simp) found

theorem Accounted.occupied (accounted : pool.Accounted) (live : id ∈ pool.leases.ids) :
    (pool.packages (pool.leases.item id).slot).tasks ≠ 0 := by
  have counted := Live.le_total (f := CreditPool.slotTasks (pool.leases.item id).slot) live
  rw [← accounted.slotTasks] at counted
  simp only [CreditPool.slotTasks, if_true] at counted
  omega

section

variable (accounted : pool.Accounted)
include accounted

/-- A lease granted is accounted for. -/
theorem Accounted.grant {transport : ℕ} {name : Bytes}
    (fresh : id ∉ pool.leases.ids) (admitted : pool.Admitted name transport slot) :
    (pool.grant id name transport slot).Accounted := by
  have counted (f : LeaseState → ℕ) : (pool.grant id name transport slot).leases.total f =
      pool.leases.total f + f { slot, name, transport } := Live.total_add fresh
  have packages (other : Fin featureTasks) :
      (pool.grant id name transport slot).packages other =
        if other = slot then ⟨name, (pool.packages slot).tasks + 1,
          (pool.packages slot).transport + transport⟩ else pool.packages other := by
    have named : (if (pool.packages slot).tasks = 0 then name else (pool.packages slot).name) =
        name := by
      rcases admitted.chosen with ⟨occupied, same⟩ | ⟨free, -⟩
      · rw [if_neg occupied, same]
      · rw [if_pos free]
    simp only [CreditPool.grant, named]
    exact update_apply ..
  have otherLease {other : ℕ} (live : other ∈ pool.leases.ids) :
      (pool.grant id name transport slot).leases.item other = pool.leases.item other :=
    update_of_ne (ne_of_mem_of_not_mem live fresh) ..
  have newLease : (pool.grant id name transport slot).leases.item id = { slot, name, transport } :=
    update_self ..
  have isNamed : ((pool.grant id name transport slot).packages slot).name = name := by
    rw [packages, if_pos rfl]
  -- the slot of the package is the only occupied one with its name
  have sole (other : Fin featureTasks)
      (occupied : ((pool.grant id name transport slot).packages other).tasks ≠ 0)
      (same : ((pool.grant id name transport slot).packages other).name = name) :
      other = slot := by
    by_contra different
    rw [packages, if_neg different] at occupied same
    rcases admitted.chosen with ⟨chosen, named⟩ | ⟨-, others⟩
    · exact different (accounted.distinct other slot occupied chosen (same.trans named.symm))
    · exact absurd same (others other occupied)
  have members {other : ℕ} :
      other ∈ (pool.grant id name transport slot).leases.ids ↔ other = id ∨
        other ∈ pool.leases.ids :=
    Live.mem_add
  constructor
  case tasks =>
    rw [counted, ← accounted.tasks]
    rfl
  case transport =>
    rw [counted, ← accounted.transport]
    rfl
  case extra =>
    rw [counted, ← accounted.extra]
    rfl
  case slotTasks =>
    intro other
    rw [counted, ← accounted.slotTasks, packages]
    by_cases same : other = slot
    · simp [same]
    · simp [same, Ne.symm same]
  case slotTransport =>
    intro other
    rw [counted, ← accounted.slotTransport, packages]
    by_cases same : other = slot
    · simp [same]
    · simp [same, Ne.symm same]
  case slotName =>
    intro other mem
    rcases members.mp mem with rfl | live
    · simp [newLease, packages]
    rw [otherLease live, packages]
    split
    case isTrue same =>
      have named := accounted.slotName other live
      have occupied := accounted.occupied live
      rw [same] at named occupied
      rcases admitted.chosen with ⟨-, sameName⟩ | ⟨free, -⟩
      · exact sameName.symm.trans named
      · exact absurd free occupied
    case isFalse => exact accounted.slotName other live
  case distinct =>
    intro first second occupiedFirst occupiedSecond same
    rcases eq_or_ne first slot with rfl | notFirst
    · exact (sole second occupiedSecond (same.symm.trans isNamed)).symm
    rcases eq_or_ne second slot with rfl | notSecond
    · exact sole first occupiedFirst (same.trans isNamed)
    rw [packages, if_neg notFirst] at occupiedFirst same
    rw [packages, if_neg notSecond] at occupiedSecond same
    exact accounted.distinct first second occupiedFirst occupiedSecond same
  case leaseExtra =>
    intro other mem
    rcases members.mp mem with rfl | live
    · have uncharged : pool.charges.total (chargedTo other) = 0 := by
        apply Finset.sum_eq_zero
        intro charge mem
        exact if_neg fun same : _ = other => fresh (same ▸ accounted.charged charge mem)
      rw [newLease]
      exact (congrArg (ownerBookkeepingBytes + ·) uncharged).symm
    · rw [otherLease live]
      exact accounted.leaseExtra other live
  case charged =>
    intro charge mem
    exact members.mpr (.inr (accounted.charged charge mem))

theorem Accounted.set (live : id ∈ pool.leases.ids) {lease : LeaseState} {charges : Live ℕ Charge}
    (slot : lease.slot = (pool.leases.item id).slot)
    (name : lease.name = (pool.leases.item id).name)
    (transport : lease.transport = (pool.leases.item id).transport)
    (extra : ∀ other ∈ pool.leases.ids, ((pool.leases.set id lease).item other).extra =
      ownerBookkeepingBytes + charges.total (chargedTo other))
    (charged : ∀ charge ∈ charges.ids, (charges.item charge).lease ∈ pool.leases.ids) :
    Accounted { pool with leases := pool.leases.set id lease, charges } where
  tasks := accounted.tasks.trans (Live.total_set_of_eq live rfl).symm
  transport := accounted.transport.trans (Live.total_set_of_eq live transport).symm
  extra := accounted.extra.trans (Live.total_set_of_eq live rfl).symm
  slotTasks other := (accounted.slotTasks other).trans
    (Live.total_set_of_eq live (by simp [slot])).symm
  slotTransport other := (accounted.slotTransport other).trans
    (Live.total_set_of_eq live (by simp [slot, transport])).symm
  slotName other mem := by
    have named := accounted.slotName other mem
    rcases eq_or_ne other id with rfl | different
    · simpa [slot, name] using named
    · simpa [different] using named
  distinct := accounted.distinct
  leaseExtra := extra
  charged := charged

/-- A lease destroyed without charges gives back all it took. -/
theorem Accounted.destroy (live : id ∈ pool.leases.ids)
    (uncharged : ∀ charge ∈ pool.charges.ids, (pool.charges.item charge).lease ≠ id) :
    (pool.destroy id).Accounted := by
  have counted (f : LeaseState → ℕ) :
      (pool.destroy id).leases.total f + f (pool.leases.item id) = pool.leases.total f :=
    Live.total_remove live
  have members {other : ℕ} :
      other ∈ (pool.destroy id).leases.ids ↔ other ≠ id ∧ other ∈ pool.leases.ids :=
    Live.mem_remove
  generalize isSlot : (pool.leases.item id).slot = slot
  have packages (other : Fin featureTasks) : (pool.destroy id).packages other =
      if other = slot then
        ⟨if (pool.packages slot).tasks - 1 = 0 then [] else (pool.packages slot).name,
          (pool.packages slot).tasks - 1,
          (pool.packages slot).transport - (pool.leases.item id).transport⟩
      else pool.packages other := by
    simp only [CreditPool.destroy, isSlot]
    exact update_apply ..
  -- a slot that is still occupied keeps its name and was occupied before
  have kept (other : Fin featureTasks) (occupied : ((pool.destroy id).packages other).tasks ≠ 0) :
      (pool.packages other).tasks ≠ 0 ∧
        ((pool.destroy id).packages other).name = (pool.packages other).name := by
    rw [packages] at occupied ⊢
    split at occupied
    case isTrue same =>
      simp only [same, if_true, if_neg occupied, and_true]
      intro free
      simp [free] at occupied
    case isFalse different => exact ⟨occupied, by rw [if_neg different]⟩
  have slotTasks (other : Fin featureTasks) : ((pool.destroy id).packages other).tasks =
      (pool.destroy id).leases.total (CreditPool.slotTasks other) := by
    have before := accounted.slotTasks other
    rw [← counted, CreditPool.slotTasks, isSlot] at before
    rw [packages]
    split
    case isTrue same =>
      rw [same, if_pos rfl] at before
      simp only [same]
      omega
    case isFalse different =>
      rw [if_neg (Ne.symm different)] at before
      exact before
  constructor
  case tasks =>
    have before := accounted.tasks
    have after := counted fun _ => 1
    simp only [CreditPool.destroy] at after ⊢
    omega
  case transport =>
    have before := accounted.transport
    have after := counted LeaseState.transport
    simp only [CreditPool.destroy] at after ⊢
    omega
  case extra =>
    have before := accounted.extra
    have after := counted fun _ => extraBytesPerLease
    simp only [CreditPool.destroy] at after ⊢
    omega
  case slotTasks => exact slotTasks
  case slotTransport =>
    intro other
    have before := accounted.slotTransport other
    rw [← counted, CreditPool.slotTransport, isSlot] at before
    rw [packages]
    split
    case isTrue same =>
      rw [same, if_pos rfl] at before
      simp only [same]
      omega
    case isFalse different =>
      rw [if_neg (Ne.symm different)] at before
      exact before
  case slotName =>
    intro other mem
    have occupied : ((pool.destroy id).packages (pool.leases.item other).slot).tasks ≠ 0 := by
      have still := Live.le_total (f := CreditPool.slotTasks (pool.leases.item other).slot) mem
      have self : CreditPool.slotTasks (pool.leases.item other).slot
          ((pool.destroy id).leases.item other) = 1 := if_pos rfl
      rw [slotTasks]
      omega
    exact (kept _ occupied).2.trans (accounted.slotName other (members.mp mem).2)
  case distinct =>
    intro first second occupiedFirst occupiedSecond same
    rcases kept first occupiedFirst with ⟨wasFirst, nameFirst⟩
    rcases kept second occupiedSecond with ⟨wasSecond, nameSecond⟩
    rw [nameFirst, nameSecond] at same
    exact accounted.distinct first second wasFirst wasSecond same
  case leaseExtra =>
    intro other mem
    exact accounted.leaseExtra other (members.mp mem).2
  case charged =>
    intro charge mem
    exact members.mpr ⟨uncharged charge mem, accounted.charged charge mem⟩

theorem Accounted.reserve {charge bytes : ℕ}
    (live : id ∈ pool.leases.ids) (fresh : charge ∉ pool.charges.ids) :
    (pool.reserve id charge bytes).Accounted := by
  have counted (other : ℕ) : (pool.charges.add charge ⟨id, bytes⟩).total (chargedTo other) =
      pool.charges.total (chargedTo other) + if id = other then bytes else 0 :=
    Live.total_add fresh
  refine accounted.set live rfl rfl rfl ?_ ?_
  · intro other mem
    have before := accounted.leaseExtra other mem
    rw [counted]
    rcases eq_or_ne other id with rfl | different
    · simp only [Live.item_set, update_self, if_true, before]
      omega
    · simp [different, Ne.symm different, before]
  · intro other mem
    rcases Live.mem_add.mp mem with rfl | held
    · simpa using live
    · simpa [ne_of_mem_of_not_mem held fresh] using accounted.charged other held

theorem Accounted.release {charge : ℕ}
    (held : charge ∈ pool.charges.ids) : (pool.release charge).Accounted := by
  have live := accounted.charged charge held
  refine accounted.set live rfl rfl rfl ?_ ?_
  · intro other mem
    have before := accounted.leaseExtra other mem
    have counted := @Live.total_remove _ _ _ pool.charges charge (chargedTo other) held
    rcases eq_or_ne other (pool.charges.item charge).lease with same | different
    · have self : chargedTo other (pool.charges.item charge) =
          (pool.charges.item charge).charged := if_pos same.symm
      rw [same] at before counted self ⊢
      simp only [Live.item_set, update_self]
      omega
    · have none : chargedTo other (pool.charges.item charge) = 0 := if_neg different.symm
      simp only [Live.item_set, update_of_ne different]
      omega
  · intro other mem
    exact accounted.charged other (Live.mem_remove.mp mem).2

theorem Accounted.move {source target : ℕ}
    (held : source ∈ pool.charges.ids) (empty : target ∉ pool.charges.ids) :
    (pool.move source target).Accounted := by
  have absent : target ∉ (pool.charges.remove source).ids := fun mem =>
    empty (Live.mem_remove.mp mem).2
  refine { accounted with leaseExtra := ?_, charged := ?_ }
  · intro id mem
    have moved : (pool.move source target).charges.total (chargedTo id) =
        pool.charges.total (chargedTo id) :=
      (Live.total_add absent).trans (Live.total_remove held)
    exact (accounted.leaseExtra id mem).trans (congrArg _ moved.symm)
  · intro charge mem
    rcases Live.mem_add.mp mem with rfl | other
    · simpa [CreditPool.move] using accounted.charged source held
    · simpa [CreditPool.move, ne_of_mem_of_not_mem other absent] using
        accounted.charged charge (Live.mem_remove.mp other).2

theorem Accounted.setHandles (live : id ∈ pool.leases.ids)
    (handles : ℕ) : (pool.setLease id { pool.leases.item id with handles }).Accounted := by
  refine accounted.set live rfl rfl rfl ?_ accounted.charged
  intro other mem
  rw [← accounted.leaseExtra other mem]
  rcases eq_or_ne other id with rfl | different
  · simp
  · simp [different]

/-- Every step keeps the accounts. -/
theorem Accounted.step (step : Step pool action next) : next.Accounted := by
  cases step with
  | admitted fresh admits => exact accounted.grant fresh (admitted_of_admits admits)
  | refused | unreserved | drained => exact accounted
  | close => exact { accounted with }
  | copy live held | drop live held => exact accounted.setHandles live _
  | reserved live held fresh fits => exact accounted.reserve live fresh
  | move held empty => exact accounted.move held empty
  | release held => exact accounted.release held
  | destroy live dropped uncharged => exact accounted.destroy live uncharged

end

theorem chargeFor_eq_some {lease : LeaseState} {payload bytes : ℕ}
    (fits : chargeFor lease payload = some bytes) : bytes ≤ extraBytesPerLease - lease.extra := by
  rw [chargeFor] at fits
  split at fits
  case isTrue => cases fits
  split at fits <;> cases fits
  rename_i small
  omega

/-- Every step keeps the limits. -/
theorem Limited.step (limited : pool.Limited) (accounted : pool.Accounted)
    (step : Step pool action next) : next.Limited := by
  -- a lease whose extra bytes stay within the limit, and charges that do not count here
  have set {id : ℕ} {lease : LeaseState} {charges : Live ℕ Charge}
      (small : lease.extra ≤ extraBytesPerLease) :
      Limited { pool with leases := pool.leases.set id lease, charges } := by
    refine { limited with leaseExtra := ?_ }
    intro other mem
    rcases eq_or_ne other id with rfl | different
    · simpa using small
    · simpa [different] using limited.leaseExtra other mem
  cases step with
  | refused | unreserved | drained => exact limited
  | close | move => exact { limited with }
  | copy live held | drop live held => exact set (limited.leaseExtra _ live)
  | reserved live held fresh fits =>
    have small := limited.leaseExtra _ live
    have room := chargeFor_eq_some fits
    exact set (by simp only; omega)
  | release held =>
    have small := limited.leaseExtra _ (accounted.charged _ held)
    exact set (by simp only; omega)
  | @admitted id _ name transport slot fresh admits =>
    have admitted := admitted_of_admits admits
    have slotTasks := limited.slotTasks slot
    have slotTransport := limited.slotTransport slot
    have notFull := admitted.slotTasks
    have slotFits := admitted.slotFits
    constructor
    case tasks =>
      have few := limited.tasks
      have notFull := admitted.tasks
      simp only [CreditPool.grant]
      omega
    case transport =>
      have few := limited.transport
      have fits := admitted.fits
      simp only [CreditPool.grant]
      omega
    case slotTasks =>
      exact (forall_update_iff _ fun _ (p : Package) => p.tasks ≤ packageTasks).mpr
        ⟨by simp only; omega, fun other _ => limited.slotTasks other⟩
    case slotTransport =>
      exact (forall_update_iff _ fun _ (p : Package) => p.transport ≤ packageTransportBytes).mpr
        ⟨by simp only; omega, fun other _ => limited.slotTransport other⟩
    case leaseExtra =>
      intro other mem
      rcases Live.mem_add.mp mem with rfl | live
      · simp only [CreditPool.grant, Live.item_add, update_self]
        decide
      · simpa [CreditPool.grant, ne_of_mem_of_not_mem live fresh] using
          limited.leaseExtra other live
  | @destroy id live dropped uncharged =>
    constructor
    case tasks => exact (Nat.sub_le _ _).trans limited.tasks
    case transport => exact (Nat.sub_le _ _).trans limited.transport
    case slotTasks =>
      exact (forall_update_iff _ fun _ (p : Package) => p.tasks ≤ packageTasks).mpr
        ⟨(Nat.sub_le _ _).trans (limited.slotTasks _), fun other _ => limited.slotTasks other⟩
    case slotTransport =>
      exact (forall_update_iff _ fun _ (p : Package) => p.transport ≤ packageTransportBytes).mpr
        ⟨(Nat.sub_le _ _).trans (limited.slotTransport _),
          fun other _ => limited.slotTransport other⟩
    case leaseExtra => exact fun other mem => limited.leaseExtra other (Live.mem_remove.mp mem).2

/-- No subtraction of the code goes below zero: not those of a destructor and of a release, and not
those of the checks. -/
structure NoUnderflow (pool : CreditPool) : Prop where
  destroy : ∀ id ∈ pool.leases.ids,
    let lease := pool.leases.item id
    1 ≤ pool.totals.tasks ∧ lease.transport ≤ pool.totals.borrowedTransportBytes ∧
      extraBytesPerLease ≤ pool.totals.reservedExtraBytes ∧
      1 ≤ (pool.packages lease.slot).tasks ∧
      lease.transport ≤ (pool.packages lease.slot).transport
  release : ∀ charge ∈ pool.charges.ids, (pool.charges.item charge).charged ≤
      (pool.leases.item (pool.charges.item charge).lease).extra
  checks : pool.totals.borrowedTransportBytes ≤ featureTransportBytes ∧
    (∀ slot, (pool.packages slot).transport ≤ packageTransportBytes) ∧
    ∀ id ∈ pool.leases.ids, (pool.leases.item id).extra ≤ extraBytesPerLease

theorem Accounted.noUnderflow (accounted : pool.Accounted) (limited : pool.Limited) :
    pool.NoUnderflow where
  destroy id live := by
    have slotTransport := Live.le_total (f := CreditPool.slotTransport (pool.leases.item id).slot)
      live
    rw [← accounted.slotTransport, CreditPool.slotTransport, if_pos rfl] at slotTransport
    rw [accounted.tasks, accounted.transport, accounted.extra]
    exact ⟨Live.le_total (f := fun _ => 1) live, Live.le_total live,
      Live.le_total (f := fun _ => extraBytesPerLease) live,
      Nat.one_le_iff_ne_zero.mpr (accounted.occupied live), slotTransport⟩
  release charge held := by
    have counted := Live.le_total (f := chargedTo (pool.charges.item charge).lease) held
    rw [chargedTo, if_pos rfl] at counted
    rw [accounted.leaseExtra _ (accounted.charged charge held)]
    omega
  checks := ⟨limited.transport, limited.slotTransport, limited.leaseExtra⟩

theorem Accounted.byName (accounted : pool.Accounted) (occupied : (pool.packages slot).tasks ≠ 0) :
    (pool.packages slot).tasks =
        pool.leases.total (fun lease => if lease.name = (pool.packages slot).name then 1 else 0) ∧
      (pool.packages slot).transport = pool.leases.total fun lease =>
        if lease.name = (pool.packages slot).name then lease.transport else 0 := by
  have same {id : ℕ} (live : id ∈ pool.leases.ids) : (pool.leases.item id).slot = slot ↔
      (pool.leases.item id).name = (pool.packages slot).name := by
    rw [← accounted.slotName id live]
    constructor
    · intro isSlot
      rw [isSlot]
    · exact accounted.distinct _ _ (accounted.occupied live) occupied
  constructor
  · refine (accounted.slotTasks slot).trans (Live.total_congr fun id live => ?_)
    simp only [CreditPool.slotTasks, same live]
  · refine (accounted.slotTransport slot).trans (Live.total_congr fun id live => ?_)
    simp only [CreditPool.slotTransport, same live]

theorem accounted_of_reachable (reachable : system.Reachable pool) :
    pool.Accounted ∧ pool.Limited := by
  rcases reachable with ⟨start, actions, rfl, run⟩
  refine run.preserves (fun pool => pool.Accounted ∧ pool.Limited) ?_ ?_
  · intro state label next sound step
    exact ⟨sound.1.step step, sound.2.step sound.1 step⟩
  · constructor
    · constructor <;> simp [new, Live.total]
    · constructor <;> simp [new]

/-- In every reachable state the totals and the slots count the leases that live, by their own
names, each limit is kept and no counter goes below zero; and `drain` returns true only when no
lease and no charge is left. -/
theorem creditPool_accounted (pool : CreditPool) (reachable : system.Reachable pool) :
    pool.Accounted ∧ pool.Limited ∧ pool.NoUnderflow ∧
      (∀ slot, (pool.packages slot).tasks ≠ 0 → (pool.packages slot).tasks = pool.leases.total
            (fun lease => if lease.name = (pool.packages slot).name then 1 else 0) ∧
          (pool.packages slot).transport = pool.leases.total fun lease =>
            if lease.name = (pool.packages slot).name then lease.transport else 0) ∧
      ∀ next, Step pool .drained next → next.leases.ids = ∅ ∧ next.charges.ids = ∅ := by
  rcases accounted_of_reachable reachable with ⟨accounted, limited⟩
  refine ⟨accounted, limited, accounted.noUnderflow limited, fun slot => accounted.byName, ?_⟩
  rintro next (_ | _)
  rename_i closed none
  have noLease : pool.leases.ids = ∅ := Live.ids_eq_empty (accounted.tasks.symm.trans none)
  refine ⟨noLease, Finset.eq_empty_of_forall_notMem fun charge held => ?_⟩
  have live := accounted.charged charge held
  simp [noLease] at live

/-- The lease of a request of `notes`, which a charge keeps alive after its handle was dropped. -/
def chargedPool : CreditPool :=
  let reserved := (new.grant 7 (utf8 "notes") 100 ⟨0, by decide⟩).reserve 7 3 124
  { reserved.setLease 7 { reserved.leases.item 7 with handles := 0 } with accepting := false }

theorem chargedPool_reachable : system.Reachable chargedPool := by
  have admitted : Step new (.tryAcquire 7 true (utf8 "notes") 100)
      (new.grant 7 (utf8 "notes") 100 ⟨0, by decide⟩) :=
    .admitted (by simp [new]) (by decide +kernel)
  exact ⟨new, _, rfl, .head admitted <|
    .head (@Step.reserved _ 7 3 100 124 (by decide) (by decide) (by decide) rfl) <|
    .head (.drop (by decide) (by decide)) <| .single .close⟩

/-- A lease that is only charged still counts; once the charge is released and the lease destroyed,
the drain returns and nothing is left. -/
theorem notesRequest_accounted :
    (system.Reachable chargedPool ∧ (chargedPool.packages ⟨0, by decide⟩).tasks = 1 ∧
      1 = chargedPool.leases.total fun lease =>
        if lease.name = (chargedPool.packages ⟨0, by decide⟩).name then 1 else 0) ∧
    ∃ pool, system.Run chargedPool [.release 3, .destroy 7] pool ∧ Step pool .drained pool ∧
      pool.leases.ids = ∅ ∧ pool.charges.ids = ∅ := by
  refine ⟨⟨chargedPool_reachable, rfl, ?_⟩, ?_⟩
  · exact ((creditPool_accounted _ chargedPool_reachable).2.2.2.1 ⟨0, by decide⟩
      (by decide +kernel)).1
  · have run : system.Run chargedPool [.release 3, .destroy 7] _ :=
      .head (.release (by decide)) <| .single (.destroy (by decide) (by decide) (by decide))
    rcases chargedPool_reachable with ⟨start, actions, isNew, toCharged⟩
    have drained : Step ((chargedPool.release 3).destroy 7) .drained _ := .drained rfl rfl
    exact ⟨_, run, drained,
      (creditPool_accounted _ ⟨start, _, isNew, toCharged.trans run⟩).2.2.2.2 _ drained⟩

end CreditPool

end Plinth.ExtensionHttp
