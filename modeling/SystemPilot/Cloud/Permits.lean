import Mathlib.Tactic
import SystemPilot.Library.Machine
import SystemPilot.Cloud.Database

/-!
# Admission permits

`Admission::try_acquire` and the drop of an `AdmissionPermit`.  Every identity
has a semaphore of its own behind an `Arc`; the map holds one reference, each
live permit another, and a full map is purged of the semaphores no permit holds.
An `Arc` is the position of its semaphore in the list of those allocated so far.
-/

set_option autoImplicit false

namespace SystemPilot.Cloud

open SystemPilot.Library

/-- `usize::MAX`. -/
def usizeMax : Nat := 2 ^ 64 - 1

/-- `usize::saturating_mul`. -/
def saturatingMul (left right : Nat) : Nat := min (left * right) usizeMax

/-- `Semaphore::MAX_PERMITS`; `Semaphore::new` panics above it. -/
def maxPermits : Nat := usizeMax >>> 3

/-- What the admission uses of `tokio::sync::Semaphore`. -/
structure Semaphores where
  Semaphore : Type
  new : (permits : Nat) → permits ≤ maxPermits → Semaphore
  availablePermits : Semaphore → Nat
  tryAcquire : Semaphore → Option Semaphore
  release : Semaphore → Semaphore
  available_new : ∀ permits fits, availablePermits (new permits fits) = permits
  tryAcquire_none : ∀ semaphore, tryAcquire semaphore = none ↔ availablePermits semaphore = 0
  available_tryAcquire : ∀ semaphore taken, tryAcquire semaphore = some taken →
    availablePermits semaphore = availablePermits taken + 1
  available_release : ∀ semaphore,
    availablePermits (release semaphore) = availablePermits semaphore + 1

/-- `(tenant_id, node_id)`. -/
abbrev Identity := Uuid × String

abbrev Address := Nat

structure Admission (tokio : Semaphores) where
  global : tokio.Semaphore
  identities : List (Identity × Address)
  perIdentity : { permits : Nat // permits ≤ maxPermits }
  maxIdentities : Nat

/-- `holder` is not in the source: the identity the permit was acquired for. -/
structure AdmissionPermit where
  holder : Identity
  identity : Address
  deriving DecidableEq, Repr

/-- The admission with the semaphores it allocated and the permits not dropped yet. -/
structure AdmissionState (tokio : Semaphores) where
  admission : Admission tokio
  semaphores : List tokio.Semaphore
  permits : List AdmissionPermit

variable {tokio : Semaphores}

theorem perIdentity_fits (capacity : Nat) (fits : capacity ≤ maxPermits) :
    max (capacity / 4) 1 ≤ maxPermits := by
  have one : 1 ≤ maxPermits := by decide
  have quarter : capacity / 4 ≤ capacity := Nat.div_le_self capacity 4
  omega

/-- `Admission::new`; none when `Semaphore::new` panics. -/
def AdmissionState.new (tokio : Semaphores) (capacity : Nat) : Option (AdmissionState tokio) :=
  if fits : capacity ≤ maxPermits then
    some {
      admission := {
        global := tokio.new capacity fits
        identities := []
        perIdentity := ⟨max (capacity / 4) 1, perIdentity_fits capacity fits⟩
        maxIdentities := saturatingMul capacity 4 }
      semaphores := []
      permits := [] }
  else none

namespace AdmissionState

def lookup (state : AdmissionState tokio) (key : Identity) : Option Address :=
  (state.admission.identities.find? fun entry => entry.1 == key).map Prod.snd

def containsKey (state : AdmissionState tokio) (key : Identity) : Bool :=
  state.admission.identities.any fun entry => entry.1 == key

/-- `Arc::strong_count`: the entries of the map and the live permits that hold the semaphore. -/
def strongCount (state : AdmissionState tokio) (address : Address) : Nat :=
  (state.admission.identities.map Prod.snd).count address +
    (state.permits.map AdmissionPermit.identity).count address

/-- `identities.retain`. -/
def purge (state : AdmissionState tokio) : AdmissionState tokio :=
  { state with
    admission.identities :=
      state.admission.identities.filter fun entry => decide (1 < state.strongCount entry.2) }

/-- The key is unknown and the map holds all it may hold. -/
def full (state : AdmissionState tokio) (key : Identity) : Bool :=
  !state.containsKey key && decide (state.admission.maxIdentities ≤ state.admission.identities.length)

def makeRoom (state : AdmissionState tokio) (key : Identity) : AdmissionState tokio :=
  if state.full key then state.purge else state

/-- `entry(key).or_insert_with(…).clone()`. -/
def entry (state : AdmissionState tokio) (key : Identity) : AdmissionState tokio × Address :=
  match state.lookup key with
  | some address => (state, address)
  | none =>
      let address := state.semaphores.length
      ({ state with
          admission.identities := state.admission.identities ++ [(key, address)]
          semaphores := state.semaphores ++
            [tokio.new state.admission.perIdentity.val state.admission.perIdentity.property] },
        address)

/-- The two permits; when the global one is refused the identity's is dropped again. -/
def takePermits (state : AdmissionState tokio) (key : Identity) (address : Address) :
    AdmissionState tokio × Option AdmissionPermit :=
  match state.semaphores[address]?.bind tokio.tryAcquire with
  | none => (state, none)
  | some taken =>
      match tokio.tryAcquire state.admission.global with
      | none =>
          ({ state with semaphores := state.semaphores.set address (tokio.release taken) }, none)
      | some global =>
          let permit : AdmissionPermit := { holder := key, identity := address }
          ({ admission := { state.admission with global := global }
             semaphores := state.semaphores.set address taken
             permits := state.permits ++ [permit] }, some permit)

/-- `Admission::try_acquire`. -/
def tryAcquire (state : AdmissionState tokio) (key : Identity) :
    AdmissionState tokio × Option AdmissionPermit :=
  let state := state.makeRoom key
  if state.full key then (state, none)
  else
    let (state, address) := state.entry key
    state.takePermits key address

/-- The permit at a position of the live ones is dropped: `_identity` first, then `_global`. -/
def dropPermit (state : AdmissionState tokio) (position : Nat) : AdmissionState tokio :=
  match state.permits[position]? with
  | none => state
  | some permit =>
      { admission := { state.admission with global := tokio.release state.admission.global }
        semaphores := state.semaphores.modify permit.identity tokio.release
        permits := state.permits.eraseIdx position }

end AdmissionState

inductive AdmissionEvent where
  | tryAcquire (tenantId : Uuid) (nodeId : String)
  | drop (position : Nat)

def admissionStep (state : AdmissionState tokio) : AdmissionEvent → AdmissionState tokio
  | .tryAcquire tenantId nodeId => (state.tryAcquire (tenantId, nodeId)).1
  | .drop position => state.dropPermit position

/-! ## The counts -/

namespace AdmissionState

/-- The live permits of one identity. -/
def live (state : AdmissionState tokio) (key : Identity) : Nat :=
  (state.permits.map AdmissionPermit.holder).count key

/-- What the identity's semaphore has left; an unknown identity gets a new one. -/
def available (state : AdmissionState tokio) (key : Identity) : Nat :=
  match state.lookup key with
  | none => state.admission.perIdentity.val
  | some address => (state.semaphores[address]?.map tokio.availablePermits).getD 0

def globalAvailable (state : AdmissionState tokio) : Nat :=
  tokio.availablePermits state.admission.global

/-- The semaphores count the live permits: a permit's semaphore is the one the map
has for its holder, and what a semaphore has left and its live permits make its limit. -/
structure Exact (capacity : Nat) (state : AdmissionState tokio) : Prop where
  fits : capacity ≤ maxPermits
  limit : state.admission.perIdentity.val = max (capacity / 4) 1
  room : state.admission.maxIdentities = saturatingMul capacity 4
  keys : (state.admission.identities.map Prod.fst).Nodup
  addresses : (state.admission.identities.map Prod.snd).Nodup
  counted : ∀ entry ∈ state.admission.identities, ∃ semaphore,
    state.semaphores[entry.2]? = some semaphore ∧
      tokio.availablePermits semaphore + state.live entry.1 = state.admission.perIdentity.val
  mapped : ∀ permit ∈ state.permits,
    (permit.holder, permit.identity) ∈ state.admission.identities
  global : state.globalAvailable + state.permits.length = capacity
  bounded : state.admission.identities.length ≤ state.admission.maxIdentities

theorem lookup_eq_some {state : AdmissionState tokio} {key : Identity} {address : Address}
    (found : state.lookup key = some address) : (key, address) ∈ state.admission.identities := by
  obtain ⟨entry, matched, rfl⟩ := Option.map_eq_some_iff.mp found
  have same : entry.1 = key := by simpa using List.find?_some matched
  rw [← same]
  exact List.mem_of_find?_eq_some matched

theorem lookup_eq_none {state : AdmissionState tokio} {key : Identity} :
    state.lookup key = none ↔ state.containsKey key = false := by
  simp [lookup, containsKey]

theorem live_pos {state : AdmissionState tokio} {key : Identity} :
    0 < state.live key ↔ ∃ permit ∈ state.permits, permit.holder = key := by
  rw [live, List.count_pos_iff, List.mem_map]

namespace Exact

variable {capacity : Nat} {state : AdmissionState tokio}

theorem new {start : AdmissionState tokio}
    (created : AdmissionState.new tokio capacity = some start) : Exact capacity start := by
  unfold AdmissionState.new at created
  split at created
  case isFalse => cases created
  case isTrue fits =>
    cases created
    exact {
      fits := fits
      limit := rfl
      room := rfl
      keys := List.nodup_nil
      addresses := List.nodup_nil
      counted := by simp
      mapped := by simp
      global := by simp [globalAvailable, tokio.available_new]
      bounded := Nat.zero_le _ }

theorem available_add_live (exact : Exact capacity state) (key : Identity) :
    state.available key + state.live key = max (capacity / 4) 1 := by
  rw [← exact.limit]
  cases found : state.lookup key with
  | none =>
      have idle : state.live key = 0 := by
        apply Nat.eq_zero_of_not_pos
        intro positive
        obtain ⟨permit, member, rfl⟩ := live_pos.mp positive
        have absent := lookup_eq_none.mp found
        simp only [containsKey, List.any_eq_false] at absent
        exact absent _ (exact.mapped permit member) (by simp)
      simp [available, found, idle]
  | some address =>
      obtain ⟨semaphore, allocated, counted⟩ := exact.counted _ (lookup_eq_some found)
      simpa [available, found, allocated] using counted

theorem live_le (exact : Exact capacity state) (key : Identity) :
    state.live key ≤ max (capacity / 4) 1 := by
  have total := exact.available_add_live key
  omega

theorem permits_le (exact : Exact capacity state) : state.permits.length ≤ capacity := by
  have total := exact.global
  omega

/-- Only a live permit of the entry's identity is a second reference to its semaphore. -/
theorem strongCount_gt_one (exact : Exact capacity state) {entry : Identity × Address}
    (member : entry ∈ state.admission.identities) :
    1 < state.strongCount entry.2 ↔ 0 < state.live entry.1 := by
  have once : (state.admission.identities.map Prod.snd).count entry.2 = 1 :=
    List.count_eq_one_of_mem exact.addresses (List.mem_map_of_mem member)
  have references : 0 < (state.permits.map AdmissionPermit.identity).count entry.2 ↔
      0 < state.live entry.1 := by
    rw [List.count_pos_iff, live_pos, List.mem_map]
    refine exists_congr fun permit => and_congr_right fun held => ?_
    have mapped := exact.mapped permit held
    constructor
    · intro same
      have entries : (permit.holder, permit.identity) = entry :=
        List.inj_on_of_nodup_map exact.addresses mapped member same
      rw [← entries]
    · intro same
      have entries : (permit.holder, permit.identity) = entry :=
        List.inj_on_of_nodup_map exact.keys mapped member same
      rw [← entries]
  unfold strongCount
  omega

/-! ### Purging -/

theorem mem_purge (exact : Exact capacity state) {entry : Identity × Address} :
    entry ∈ state.purge.admission.identities ↔
      entry ∈ state.admission.identities ∧ 0 < state.live entry.1 := by
  simp only [purge, List.mem_filter, decide_eq_true_eq]
  exact and_congr_right fun member => exact.strongCount_gt_one member

theorem purge (exact : Exact capacity state) : Exact capacity state.purge := by
  have sublist : List.Sublist state.purge.admission.identities state.admission.identities :=
    List.filter_sublist
  exact {
    fits := exact.fits
    limit := exact.limit
    room := exact.room
    keys := (sublist.map Prod.fst).nodup exact.keys
    addresses := (sublist.map Prod.snd).nodup exact.addresses
    counted := fun entry member => exact.counted entry (exact.mem_purge.mp member).1
    mapped := fun permit member => exact.mem_purge.mpr
      ⟨exact.mapped permit member, live_pos.mpr ⟨permit, member, rfl⟩⟩
    global := exact.global
    bounded := sublist.length_le.trans exact.bounded }

/-- A purged map holds no more identities than there are live permits. -/
theorem purge_length_le (exact : Exact capacity state) :
    state.purge.admission.identities.length ≤ state.permits.length := by
  have subset : state.purge.admission.identities.map Prod.fst ⊆
      state.permits.map AdmissionPermit.holder := by
    intro key member
    obtain ⟨entry, purged, rfl⟩ := List.mem_map.mp member
    obtain ⟨permit, held, same⟩ := live_pos.mp (exact.mem_purge.mp purged).2
    exact List.mem_map.mpr ⟨permit, held, same⟩
  have shorter := (List.subperm_of_subset exact.purge.keys subset).length_le
  simpa using shorter

theorem makeRoom (exact : Exact capacity state) (key : Identity) :
    Exact capacity (state.makeRoom key) := by
  unfold AdmissionState.makeRoom
  split
  · exact exact.purge
  · exact exact

theorem capacity_le_room (exact : Exact capacity state) :
    capacity ≤ state.admission.maxIdentities := by
  have permits : maxPermits ≤ usizeMax := by decide
  have fits := exact.fits
  rw [exact.room, saturatingMul]
  omega

/-- While capacity is free no identity is refused for want of room in the map. -/
theorem not_full_makeRoom (exact : Exact capacity state) (key : Identity)
    (free : state.permits.length < capacity) : (state.makeRoom key).full key = false := by
  unfold AdmissionState.makeRoom
  split
  · have shorter := exact.purge_length_le
    have room : capacity ≤ state.purge.admission.maxIdentities := exact.capacity_le_room
    simp only [full, Bool.and_eq_false_iff, decide_eq_false_iff_not]
    exact Or.inr (by omega)
  · rename_i room
    exact Bool.eq_false_iff.mpr room

/-! ### Acquiring -/

theorem address_lt (exact : Exact capacity state) {entry : Identity × Address}
    (member : entry ∈ state.admission.identities) : entry.2 < state.semaphores.length := by
  obtain ⟨semaphore, allocated, _⟩ := exact.counted entry member
  exact (List.getElem?_eq_some_iff.mp allocated).1

theorem entry_mem (key : Identity) :
    (key, (state.entry key).2) ∈ (state.entry key).1.admission.identities := by
  unfold AdmissionState.entry
  split
  · rename_i address found
    exact lookup_eq_some found
  · simp

theorem entry_permits (key : Identity) : (state.entry key).1.permits = state.permits := by
  unfold AdmissionState.entry
  split <;> rfl

theorem entry (exact : Exact capacity state) {key : Identity} (room : state.full key = false) :
    Exact capacity (state.entry key).1 := by
  unfold AdmissionState.entry
  split
  · exact exact
  · rename_i unknown
    have absent : state.containsKey key = false := lookup_eq_none.mp unknown
    have newKey : key ∉ state.admission.identities.map Prod.fst := by
      intro member
      obtain ⟨known, present, rfl⟩ := List.mem_map.mp member
      simp only [containsKey, List.any_eq_false] at absent
      exact absent known present (by simp)
    have idle : state.live key = 0 := by
      apply Nat.eq_zero_of_not_pos
      intro positive
      obtain ⟨permit, member, rfl⟩ := live_pos.mp positive
      exact newKey (List.mem_map_of_mem (exact.mapped permit member))
    exact {
      fits := exact.fits
      limit := exact.limit
      room := exact.room
      keys := by
        rw [List.map_append, List.map_singleton]
        exact List.nodup_append.mpr ⟨exact.keys, List.nodup_singleton key, by
          intro known member other same
          rw [List.mem_singleton.mp same]
          intro equal
          rw [equal] at member
          exact newKey member⟩
      addresses := by
        rw [List.map_append, List.map_singleton]
        exact List.nodup_append.mpr ⟨exact.addresses, List.nodup_singleton _, by
          intro address member other same
          rw [List.mem_singleton.mp same]
          obtain ⟨known, present, rfl⟩ := List.mem_map.mp member
          exact (exact.address_lt present).ne⟩
      counted := by
        intro known member
        rcases List.mem_append.mp member with present | new
        · obtain ⟨semaphore, allocated, counted⟩ := exact.counted known present
          refine ⟨semaphore, ?_, counted⟩
          rw [List.getElem?_append_left (exact.address_lt present)]
          exact allocated
        · rw [List.mem_singleton.mp new]
          refine ⟨_, List.getElem?_concat_length, ?_⟩
          rw [tokio.available_new]
          show state.admission.perIdentity.val + state.live key = state.admission.perIdentity.val
          rw [idle, Nat.add_zero]
      mapped := fun permit member => List.mem_append_left _ (exact.mapped permit member)
      global := exact.global
      bounded := by
        have shorter : state.admission.identities.length < state.admission.maxIdentities := by
          simpa [full, absent] using room
        simpa using shorter }

theorem semaphore_of_mem (exact : Exact capacity state) {key : Identity} {address : Address}
    (member : (key, address) ∈ state.admission.identities) :
    ∃ semaphore, state.semaphores[address]? = some semaphore ∧
      tokio.availablePermits semaphore + state.live key = max (capacity / 4) 1 := by
  rw [← exact.limit]
  exact exact.counted (key, address) member

/-- Replacing one semaphore keeps the count of every other identity. -/
theorem counted_set (exact : Exact capacity state) {key : Identity} {address : Address}
    (member : (key, address) ∈ state.admission.identities) (semaphore : tokio.Semaphore)
    (live : Identity → Nat) (others : ∀ other, other ≠ key → live other = state.live other)
    (own : tokio.availablePermits semaphore + live key = max (capacity / 4) 1) :
    ∀ entry ∈ state.admission.identities, ∃ found,
      (state.semaphores.set address semaphore)[entry.2]? = some found ∧
        tokio.availablePermits found + live entry.1 = state.admission.perIdentity.val := by
  intro entry present
  by_cases same : entry.1 = key
  · have entries : entry = (key, address) :=
      List.inj_on_of_nodup_map exact.keys present member same
    subst entries
    exact ⟨semaphore, List.getElem?_set_self (exact.address_lt member), own.trans exact.limit.symm⟩
  · obtain ⟨found, allocated, counted⟩ := exact.counted entry present
    have apart : address ≠ entry.2 := by
      intro equal
      have entries : entry = (key, address) :=
        List.inj_on_of_nodup_map exact.addresses present member equal.symm
      exact same (congrArg Prod.fst entries)
    refine ⟨found, ?_, ?_⟩
    · rw [List.getElem?_set_ne apart]
      exact allocated
    · rw [others entry.1 same]
      exact counted

theorem takePermits (exact : Exact capacity state) {key : Identity} {address : Address}
    (member : (key, address) ∈ state.admission.identities) :
    Exact capacity (state.takePermits key address).1 := by
  obtain ⟨semaphore, allocated, counted⟩ := exact.semaphore_of_mem member
  unfold AdmissionState.takePermits
  rw [allocated, Option.bind_some]
  cases identity : tokio.tryAcquire semaphore with
  | none => exact exact
  | some taken =>
      have left := tokio.available_tryAcquire semaphore taken identity
      cases global : tokio.tryAcquire state.admission.global with
      | none =>
          exact { exact with
            counted := exact.counted_set member _ state.live (fun _ _ => rfl)
              (by rw [tokio.available_release]; omega) }
      | some remaining =>
          have globalLeft := tokio.available_tryAcquire _ _ global
          have total := exact.global
          exact { exact with
            counted := exact.counted_set member taken _
              (by intro other apart; simp [live, Ne.symm apart])
              (by simp only [live, List.map_append, List.count_append, List.map_singleton,
                    List.count_singleton_self] at counted ⊢
                  omega)
            mapped := by
              intro permit present
              rcases List.mem_append.mp present with held | new
              · exact exact.mapped permit held
              · rw [List.mem_singleton.mp new]
                exact member
            global := by
              simp only [globalAvailable, List.length_append, List.length_singleton] at total ⊢
              omega }

/-- Both permits are there exactly below both limits; a refusal changes no live permit. -/
theorem takePermits_cases (exact : Exact capacity state) {key : Identity} {address : Address}
    (member : (key, address) ∈ state.admission.identities) :
    (state.live key < max (capacity / 4) 1 ∧ state.permits.length < capacity ∧
      (state.takePermits key address).2 = some ⟨key, address⟩ ∧
      (state.takePermits key address).1.permits = state.permits ++ [⟨key, address⟩]) ∨
    (¬(state.live key < max (capacity / 4) 1 ∧ state.permits.length < capacity) ∧
      (state.takePermits key address).2 = none ∧
      (state.takePermits key address).1.permits = state.permits) := by
  obtain ⟨semaphore, allocated, counted⟩ := exact.semaphore_of_mem member
  have total := exact.global
  unfold AdmissionState.takePermits
  rw [allocated, Option.bind_some]
  cases identity : tokio.tryAcquire semaphore with
  | none =>
      have empty := (tokio.tryAcquire_none semaphore).mp identity
      exact Or.inr ⟨by omega, rfl, rfl⟩
  | some taken =>
      have left := tokio.available_tryAcquire semaphore taken identity
      cases global : tokio.tryAcquire state.admission.global with
      | none =>
          have empty := (tokio.tryAcquire_none _).mp global
          simp only [globalAvailable] at total
          exact Or.inr ⟨by omega, rfl, rfl⟩
      | some remaining =>
          have globalLeft := tokio.available_tryAcquire _ _ global
          simp only [globalAvailable] at total
          exact Or.inl ⟨by omega, by omega, rfl, rfl⟩

@[simp] theorem makeRoom_permits (key : Identity) :
    (state.makeRoom key).permits = state.permits := by
  unfold AdmissionState.makeRoom
  split <;> rfl

theorem tryAcquire (exact : Exact capacity state) (key : Identity) :
    Exact capacity (state.tryAcquire key).1 := by
  have roomy := exact.makeRoom key
  unfold AdmissionState.tryAcquire
  dsimp only
  split
  · exact roomy
  · rename_i room
    exact (roomy.entry (Bool.eq_false_iff.mpr room)).takePermits (entry_mem key)

/-- `try_acquire` grants exactly below both limits, and a refusal changes no live permit. -/
theorem tryAcquire_cases (exact : Exact capacity state) (key : Identity) :
    (state.live key < max (capacity / 4) 1 ∧ state.permits.length < capacity ∧
      ∃ permit, permit.holder = key ∧ (state.tryAcquire key).2 = some permit ∧
        (state.tryAcquire key).1.permits = state.permits ++ [permit]) ∨
    (¬(state.live key < max (capacity / 4) 1 ∧ state.permits.length < capacity) ∧
      (state.tryAcquire key).2 = none ∧ (state.tryAcquire key).1.permits = state.permits) := by
  have roomy := exact.makeRoom key
  unfold AdmissionState.tryAcquire
  dsimp only
  split
  · rename_i full
    refine Or.inr ⟨?_, rfl, makeRoom_permits key⟩
    rintro ⟨_, free⟩
    rw [exact.not_full_makeRoom key free] at full
    contradiction
  · rename_i room
    have known := roomy.entry (Bool.eq_false_iff.mpr room)
    have same : ((state.makeRoom key).entry key).1.permits = state.permits := by
      rw [entry_permits, makeRoom_permits]
    rcases known.takePermits_cases (entry_mem key) with
      ⟨below, free, granted, permits⟩ | ⟨limited, refused, permits⟩
    · simp only [live, same] at below free permits ⊢
      exact Or.inl ⟨below, free, _, rfl, granted, permits⟩
    · simp only [live, same] at limited permits ⊢
      exact Or.inr ⟨limited, refused, permits⟩

/-! ### Dropping -/

theorem live_eraseIdx {position : Nat} {permit : AdmissionPermit}
    (held : state.permits[position]? = some permit) (key : Identity) :
    ((state.permits.eraseIdx position).map AdmissionPermit.holder).count key +
      (if permit.holder = key then 1 else 0) = state.live key := by
  obtain ⟨inside, rfl⟩ := List.getElem?_eq_some_iff.mp held
  have order := (List.getElem_cons_eraseIdx_perm inside).map AdmissionPermit.holder
  rw [live, ← order.count_eq, List.map_cons, List.count_cons]
  simp

theorem dropPermit (exact : Exact capacity state) (position : Nat) :
    Exact capacity (state.dropPermit position) := by
  unfold AdmissionState.dropPermit
  split
  · exact exact
  · rename_i permit held
    have member : permit ∈ state.permits := List.mem_of_getElem? held
    have mapped := exact.mapped permit member
    obtain ⟨semaphore, allocated, counted⟩ := exact.semaphore_of_mem mapped
    have inside : position < state.permits.length := (List.getElem?_eq_some_iff.mp held).1
    have released : state.semaphores.modify permit.identity tokio.release =
        state.semaphores.set permit.identity (tokio.release semaphore) := by
      rw [List.modify_eq_set_getElem?, allocated]
      rfl
    have total := exact.global
    exact { exact with
      counted := by
        rw [released]
        refine exact.counted_set mapped _ _ ?_ ?_
        · intro other apart
          have count := live_eraseIdx held other
          rwa [if_neg apart.symm, Nat.add_zero] at count
        · have count := live_eraseIdx held permit.holder
          rw [if_pos rfl] at count
          rw [tokio.available_release]
          simp only [live] at count counted ⊢
          omega
      mapped := fun other present => exact.mapped other (List.mem_of_mem_eraseIdx present)
      global := by
        simp only [globalAvailable, tokio.available_release, List.length_eraseIdx_of_lt inside]
          at total ⊢
        omega }

end Exact

end AdmissionState

open AdmissionState

theorem admissionStep_exact {capacity : Nat} (state : AdmissionState tokio)
    (event : AdmissionEvent) (exact : Exact capacity state) :
    Exact capacity (admissionStep state event) := by
  cases event with
  | tryAcquire tenantId nodeId => exact exact.tryAcquire (tenantId, nodeId)
  | drop position => exact exact.dropPermit position

theorem run_admissionStep_exact {capacity : Nat} {start : AdmissionState tokio}
    (created : AdmissionState.new tokio capacity = some start) (events : List AdmissionEvent) :
    Exact capacity (Machine.run admissionStep start events) :=
  Machine.run_invariant_always admissionStep (Exact capacity) admissionStep_exact start events
    (Exact.new created)

/-- Over every run of acquisitions and drops the limits hold, a refusal changes no
count, and an acquisition is granted exactly below both limits. -/
theorem admission_exact (tokio : Semaphores) (capacity : Nat)
    (start : AdmissionState tokio) (created : AdmissionState.new tokio capacity = some start)
    (events : List AdmissionEvent) :
    let state := Machine.run admissionStep start events
    state.permits.length ≤ capacity ∧
    (∀ key, state.live key ≤ max 1 (capacity / 4)) ∧
    state.admission.identities.length ≤ 4 * capacity ∧
    ∀ key,
      ((state.tryAcquire key).2.isSome ↔
        state.live key < max 1 (capacity / 4) ∧ state.permits.length < capacity) ∧
      ((state.tryAcquire key).2 = none →
        (state.tryAcquire key).1.globalAvailable = state.globalAvailable ∧
        ∀ other, (state.tryAcquire key).1.available other = state.available other) := by
  intro state
  have exact : Exact capacity state := run_admissionStep_exact created events
  refine ⟨exact.permits_le, ?_, ?_, ?_⟩
  · intro key
    rw [Nat.max_comm]
    exact exact.live_le key
  · have bounded := exact.bounded
    rw [exact.room, saturatingMul] at bounded
    omega
  intro key
  rw [Nat.max_comm]
  have next := exact.tryAcquire key
  rcases exact.tryAcquire_cases key with
    ⟨below, free, permit, _, granted, _⟩ | ⟨limited, refused, permits⟩
  · rw [granted]
    exact ⟨by simp [below, free], by intro refused; cases refused⟩
  · rw [refused]
    refine ⟨by simpa using limited, fun _ => ⟨?_, ?_⟩⟩
    · have before := exact.global
      have after := next.global
      rw [permits] at after
      omega
    · intro other
      have before := exact.available_add_live other
      have after := next.available_add_live other
      rw [live, permits] at after
      rw [live] at before
      omega

/-- A semaphore as the number of its permits. -/
def countingSemaphores : Semaphores where
  Semaphore := Nat
  new permits _ := permits
  availablePermits semaphore := semaphore
  tryAcquire
    | 0 => none
    | left + 1 => some left
  release semaphore := semaphore + 1
  available_new _ _ := rfl
  tryAcquire_none semaphore := by cases semaphore <;> simp
  available_tryAcquire semaphore taken := by
    cases semaphore with
    | zero => intro refused; cases refused
    | succ left => intro granted; cases granted; rfl
  available_release _ := rfl

/-- Capacity 4 gives one permit an identity: the same node is refused, another is not. -/
theorem admission_exact_four :
    ∃ start, AdmissionState.new countingSemaphores 4 = some start ∧
      let state := Machine.run admissionStep start
        [.tryAcquire 1 "node-a", .tryAcquire 1 "node-a", .tryAcquire 2 "node-a"]
      state.permits.length = 2 ∧ ((state.tryAcquire (1, "node-a")).2.isSome ↔
        state.live (1, "node-a") < max 1 (4 / 4) ∧ state.permits.length < 4) :=
  ⟨_, rfl, by decide,
    ((admission_exact countingSemaphores 4 _ rfl _).2.2.2 (1, "node-a")).1⟩

end SystemPilot.Cloud
