import Mathlib.Tactic
import SystemPilot.Library.Machine
import SystemPilot.Cloud.Leases

/-!
# The notification queue across migration 005

The notification functions of 003 know no expiry; 005 adds `leased_until` and
lets expired deliveries be leased again.  A delivery that is being sent when the
migration runs has no `leased_until`, and no lease ever finds it.
-/

set_option autoImplicit false

namespace SystemPilot.Cloud

open SystemPilot.Library

/-! ## The functions of 003 -/

def QueueRow.lease003 {Subject : Type} (row : QueueRow Subject) : QueueRow Subject :=
  { row with
    status := .leased
    attemptCount := row.attemptCount + 1 }

def QueueRow.complete003 {Subject : Type} (now : Nat) (row : QueueRow Subject) :
    QueueRow Subject :=
  { row with
    status := .done
    finishedAt := some now
    failureCode := none }

def QueueRow.fail003 {Subject : Type} (now : Nat) (code : String) (row : QueueRow Subject) :
    QueueRow Subject :=
  { row with
    status := if retryLimit ≤ row.attemptCount then .failed else .pending
    availableAt := now + retryDelay row.attemptCount
    failureCode := some (truncatedCode code) }

/-- `lease_notification_delivery` of 003. -/
def leaseNotificationDelivery003 (now : Nat) (alerts : List AlertRow)
    (deliveries : List DeliveryRow) :
    QueueResult (List DeliveryRow × Option LeasedDelivery) := do
  let (deliveries, leased) ← Queue.leaseFirst (QueueRow.awaits now) QueueRow.lease003 deliveries
  return (deliveries, leased.bind (joinAlert alerts))

/-- `complete_notification_delivery` of 003. -/
def completeNotificationDelivery003 (now : Nat) (tenantId : Uuid) (deliveryId : Nat)
    (deliveries : List DeliveryRow) : List DeliveryRow × Bool :=
  Queue.settle (QueueRow.complete003 now) tenantId deliveryId deliveries

/-- `fail_notification_delivery` of 003. -/
def failNotificationDelivery003 (now : Nat) (tenantId : Uuid) (deliveryId : Nat)
    (failureCode : String) (deliveries : List DeliveryRow) : List DeliveryRow × Bool :=
  Queue.settle (QueueRow.fail003 now failureCode) tenantId deliveryId deliveries

/-! ## Runs before and after -/

/-- A call of a notification function, or the insertion of a delivery. -/
inductive DeliveryEvent where
  | insert (delivery : DeliveryRow)
  | lease (now : Nat) (alerts : List AlertRow)
  | complete (now : Nat) (tenantId : Uuid) (deliveryId : Nat)
  | fail (now : Nat) (tenantId : Uuid) (deliveryId : Nat) (failureCode : String)

/-- The table a lease leaves; an error rolls it back. -/
def leasedTable (deliveries : List DeliveryRow) :
    QueueResult (List DeliveryRow × Option LeasedDelivery) → List DeliveryRow
  | .ok (after, _) => after
  | .error _ => deliveries

/-- An insertion with the defaults of the columns. -/
def insertDelivery (delivery : DeliveryRow) (deliveries : List DeliveryRow) : List DeliveryRow :=
  if delivery.isNew then deliveries ++ [delivery] else deliveries

def deliveryStep003 (deliveries : List DeliveryRow) : DeliveryEvent → List DeliveryRow
  | .insert delivery => insertDelivery delivery deliveries
  | .lease now alerts =>
      leasedTable deliveries (leaseNotificationDelivery003 now alerts deliveries)
  | .complete now tenantId deliveryId =>
      (completeNotificationDelivery003 now tenantId deliveryId deliveries).1
  | .fail now tenantId deliveryId failureCode =>
      (failNotificationDelivery003 now tenantId deliveryId failureCode deliveries).1

def deliveryStep (deliveries : List DeliveryRow) : DeliveryEvent → List DeliveryRow
  | .insert delivery => insertDelivery delivery deliveries
  | .lease now alerts => leasedTable deliveries (leaseNotificationDelivery now alerts deliveries)
  | .complete now tenantId deliveryId =>
      (completeNotificationDelivery now tenantId deliveryId deliveries).1
  | .fail now tenantId deliveryId failureCode =>
      (failNotificationDelivery now tenantId deliveryId failureCode deliveries).1

/-- `ALTER TABLE … ADD COLUMN created_at …, ADD COLUMN leased_until`. -/
def migrate005 (now : Nat) (deliveries : List DeliveryRow) : List DeliveryRow :=
  deliveries.map fun row => { row with
    createdAt := now
    leasedUntil := none }

/-- A delivery that is not settled is pending, or sent until a known moment. -/
def NotStranded (row : DeliveryRow) : Prop :=
  match row.status with
  | .pending => True
  | .leased => row.leasedUntil.isSome = true
  | .done | .failed | .cancelled => True

/-- From some moment on a lease may pick the row. -/
def Leasable (row : DeliveryRow) : Prop :=
  ∃ moment, ∀ now, moment ≤ now → row.isDue now = true

/-- An unsettled delivery can be leased again exactly when it is not stranded. -/
theorem leasable_iff (row : DeliveryRow) (unsettled : row.status = .pending ∨ row.status = .leased) :
    Leasable row ↔ NotStranded row := by
  rcases unsettled with pending | leased
  · have stays : Leasable row :=
      ⟨row.availableAt, fun now late => by simp [QueueRow.isDue, QueueRow.awaits, pending, late]⟩
    simp [NotStranded, pending, stays]
  · simp only [NotStranded, leased]
    constructor
    · rintro ⟨moment, due⟩
      have found := due moment le_rfl
      simp only [QueueRow.isDue, QueueRow.awaits, leased, Bool.or_eq_true] at found
      rcases found with impossible | expired
      · simp at impossible
      · obtain ⟨_, until_, known, _⟩ := Queue.expired_iff.mp expired
        simp [known]
    · intro known
      obtain ⟨until_, same⟩ := Option.isSome_iff_exists.mp known
      refine ⟨until_ + 1, fun now late => ?_⟩
      rw [QueueRow.isDue, Queue.expired_iff.mpr ⟨leased, until_, same, by omega⟩, Bool.or_true]

/-! ## What the migration leaves behind -/

/-- The step lemma: a function of 005 strands no delivery. -/
theorem deliveryStep_notStranded (deliveries : List DeliveryRow) (event : DeliveryEvent)
    (held : ∀ row ∈ deliveries, NotStranded row) :
    ∀ row ∈ deliveryStep deliveries event, NotStranded row := by
  cases event with
  | insert delivery =>
      intro row member
      simp only [deliveryStep, insertDelivery] at member
      split at member
      · rename_i new
        rcases List.mem_append.mp member with old | added
        · exact held row old
        · simp only [QueueRow.isNew, Bool.and_eq_true, beq_iff_eq] at new
          rw [List.mem_singleton.mp added, NotStranded, new.1.1]
          trivial
      · exact held row member
  | lease now alerts =>
      intro row member
      simp only [deliveryStep, leaseNotificationDelivery] at member
      rcases Queue.leaseFirst_cases (QueueRow.isDue now) (QueueRow.lease now) deliveries with
        ⟨_, leased⟩ | ⟨first, _, ⟨_, leased⟩ | ⟨_, leased⟩⟩
      · rw [Queue.lease, leased] at member
        exact held row member
      · rw [Queue.lease, leased] at member
        exact held row member
      · rw [Queue.lease, leased] at member
        rcases Table.mem_update.mp member with ⟨old, _⟩ | ⟨old, _, _, rfl⟩
        · exact held row old
        · rfl
  | complete now tenantId deliveryId =>
      intro row member
      rcases Table.mem_update.mp member with ⟨old, _⟩ | ⟨old, _, _, rfl⟩
      · exact held row old
      · trivial
  | fail now tenantId deliveryId failureCode =>
      intro row member
      rcases Table.mem_update.mp member with ⟨old, _⟩ | ⟨old, _, _, rfl⟩
      · exact held row old
      · by_cases exhausted : retryLimit ≤ old.attemptCount
        · simp [NotStranded, QueueRow.fail, exhausted]
        · simp [NotStranded, QueueRow.fail, exhausted]

theorem run_notStranded (deliveries : List DeliveryRow) (events : List DeliveryEvent)
    (held : ∀ row ∈ deliveries, NotStranded row) :
    ∀ row ∈ Machine.run deliveryStep deliveries events, NotStranded row :=
  Machine.run_invariant_always deliveryStep (fun rows => ∀ row ∈ rows, NotStranded row)
    deliveryStep_notStranded deliveries events held

/-- For every run of the old functions, the migration and every run of the new
ones: at all times after the migration every unsettled delivery can be leased
once enough time has passed, exactly when no delivery was being sent when the
migration ran. -/
theorem migration_strands_nothing_iff (start : List DeliveryRow) (before : List DeliveryEvent)
    (migratedAt : Nat) (after : List DeliveryEvent) :
    (∀ done rest, after = done ++ rest →
        ∀ row ∈ Machine.run deliveryStep
            (migrate005 migratedAt (Machine.run deliveryStep003 start before)) done,
          NotStranded row ∧
            (row.status = .pending ∨ row.status = .leased → Leasable row)) ↔
      ∀ row ∈ Machine.run deliveryStep003 start before, row.status ≠ .leased := by
  constructor
  · intro always row member sending
    have stranded := (always [] after rfl
      { row with
        createdAt := migratedAt
        leasedUntil := none } (List.mem_map.mpr ⟨row, member, rfl⟩)).1
    simp [NotStranded, sending] at stranded
  · intro quiet done rest _ row member
    have start : ∀ row ∈ migrate005 migratedAt (Machine.run deliveryStep003 start before),
        NotStranded row := by
      intro migrated migratedMember
      obtain ⟨old, oldMember, rfl⟩ := List.mem_map.mp migratedMember
      have status := quiet old oldMember
      cases known : old.status with
      | leased => exact absurd known status
      | _ => simp [NotStranded]
    have held := run_notStranded _ done start row member
    exact ⟨held, fun unsettled => (leasable_iff row unsettled).mpr held⟩

/-! ## A delivery in flight -/

/-- One pending delivery. -/
def oneDelivery : List DeliveryRow :=
  [⟨1, 7, ⟨"rule-42", "email", "ops@example.test"⟩, .pending, 0, 0, none, none, 0, none⟩]

/-- A worker leases it and crashes, then the migration runs: from then on every
lease call finds nothing, at any time. -/
theorem delivery_in_flight_is_stranded :
    let migrated := migrate005 10 (Machine.run deliveryStep003 oneDelivery [.lease 5 []])
    migrated.map QueueRow.status = [.leased] ∧ (∃ row ∈ migrated, ¬NotStranded row) ∧
      ∀ now alerts, leaseNotificationDelivery now alerts migrated = .ok (migrated, none) := by
  intro migrated
  have row : migrated =
      [⟨1, 7, ⟨"rule-42", "email", "ops@example.test"⟩, .leased, 1, 0, none, none, 10, none⟩] := by
    decide
  rw [row]
  refine ⟨rfl, ⟨_, List.mem_singleton.mpr rfl, by simp [NotStranded]⟩, ?_⟩
  intro now alerts
  rfl

end SystemPilot.Cloud
