import SystemPilot.Cloud.Circuit
import SystemPilot.Cloud.Leases
import SystemPilot.Cloud.JobResults

/-!
# The workers and the provider

Both workers run one loop: ask the circuit, lease a row, send what was leased to the
provider, and settle the row by what comes back.  Any number of workers run it on one
database; a call of the database may fail and a worker may end anywhere.
-/

set_option autoImplicit false

namespace SystemPilot.Cloud

open SystemPilot.Json
open SystemPilot.Library

/-! ## What a provider answers -/

/-- How a request ends: a response, with its body when that is JSON, or none. -/
inductive ProviderReply where
  | response (status : Nat) (body : Option Value)
  | timeout
  | transport
  deriving DecidableEq

def isSuccess (status : Nat) : Bool := 200 ≤ status && status < 300

def isRedirection (status : Nat) : Bool := 300 ≤ status && status < 400

def isServerError (status : Nat) : Bool := 500 ≤ status && status < 600

def classifyStatus (status : Nat) : Except String Unit :=
  if isRedirection status then .error "redirect_rejected"
  else if status = 429 then .error "rate_limited"
  else if isServerError status then .error "provider_unavailable"
  else if isSuccess status then .ok ()
  else .error "provider_rejected"

def classifyResponse (status : Nat) (body : Option Value) : Except String Value :=
  match classifyStatus status with
  | .error code => .error code
  | .ok () =>
      match body.filter Value.isObject with
      | some result => .ok result
      | none => .error "invalid_response"

/-- What `process` of the notification worker makes of a reply. -/
def notificationResult : ProviderReply → Except String Unit
  | .response status _ => classifyStatus status
  | .timeout => .error "provider_timeout"
  | .transport => .error "transport_failure"

/-- What `process` of the reasoning worker makes of a reply. -/
def reasoningResult : ProviderReply → Except String Value
  | .response status body => classifyResponse status body
  | .timeout => .error "provider_timeout"
  | .transport => .error "transport_failure"

/-- The codes a worker gives `fail`. -/
def failureCodes : List String :=
  ["redirect_rejected", "rate_limited", "provider_unavailable", "provider_rejected",
    "invalid_response", "provider_timeout", "transport_failure"]

theorem truncatedCode_of_mem {code : String} (member : code ∈ failureCodes) :
    truncatedCode code = code := by
  have whole : ∀ code ∈ failureCodes, truncatedCode code = code := by decide
  exact whole code member

theorem classifyStatus_error {status : Nat} {code : String}
    (rejected : classifyStatus status = .error code) : code ∈ failureCodes := by
  unfold classifyStatus at rejected
  split at rejected
  · cases rejected
    decide
  · split at rejected
    · cases rejected
      decide
    · split at rejected
      · cases rejected
        decide
      · split at rejected
        · cases rejected
        · cases rejected
          decide

theorem notificationResult_error {reply : ProviderReply} {code : String}
    (rejected : notificationResult reply = .error code) : code ∈ failureCodes := by
  cases reply with
  | response status body => exact classifyStatus_error rejected
  | timeout | transport =>
      cases rejected
      decide

theorem reasoningResult_error {reply : ProviderReply} {code : String}
    (rejected : reasoningResult reply = .error code) : code ∈ failureCodes := by
  cases reply with
  | response status body =>
      have classified : classifyResponse status body = .error code := rejected
      unfold classifyResponse at classified
      split at classified
      · rename_i refused
        cases classified
        exact classifyStatus_error refused
      · split at classified
        · cases classified
        · cases classified
          decide
  | timeout | transport =>
      cases rejected
      decide

theorem classifyStatus_ok {status : Nat} (accepted : classifyStatus status = .ok ()) :
    isSuccess status = true := by
  unfold classifyStatus at accepted
  split at accepted
  · cases accepted
  · split at accepted
    · cases accepted
    · split at accepted
      · cases accepted
      · split at accepted
        · assumption
        · cases accepted

theorem notificationResult_ok {reply : ProviderReply} (accepted : notificationResult reply = .ok ()) :
    ∃ status body, reply = .response status body ∧ isSuccess status = true := by
  cases reply with
  | response status body => exact ⟨status, body, rfl, classifyStatus_ok accepted⟩
  | timeout | transport => cases accepted

theorem reasoningResult_ok {reply : ProviderReply} {result : Value}
    (accepted : reasoningResult reply = .ok result) :
    ∃ status, reply = .response status (some result) ∧ isSuccess status = true ∧
      result.isObject = true := by
  cases reply with
  | response status body =>
      have classified : classifyResponse status body = .ok result := accepted
      unfold classifyResponse at classified
      split at classified
      · cases classified
      · rename_i success
        split at classified
        · rename_i found
          cases classified
          obtain ⟨same, object⟩ := Option.filter_eq_some_iff.mp found
          exact ⟨status, by rw [same], classifyStatus_ok success, object⟩
        · cases classified
  | timeout | transport => cases accepted

/-! ## The loop -/

/-- How a call of the database ends: it is not made, it is made and the reply is lost, or
it is answered. -/
inductive Call where
  | unreached
  | unanswered
  | answered
  deriving DecidableEq

/-- What the two workers do not share: the queue with what arrives in it, what a lease
reads and returns, and how a row is settled, with whether the call succeeded. -/
structure WorkerService (Tables Arrival Source Leased Answer : Type) where
  arrive : Arrival → Tables → Tables
  lease : Source → Nat → Tables → QueueResult (Tables × Option Leased)
  result : ProviderReply → Except String Answer
  settle : Nat → Leased → Except String Answer → Tables → Tables × Bool

/-- Where a worker stands in its loop. -/
inductive Phase (Leased : Type) where
  | idle
  | waiting (leased : Leased)
  | answered (leased : Leased) (reply : ProviderReply)

/-- The workers of a queue, with the requests that were sent and the replies that came. -/
structure Fleet (Tables Leased : Type) where
  tables : Tables
  clock : Nat := 0
  phases : Nat → Phase Leased := fun _ => .idle
  circuits : Nat → DeliveryCircuit := fun _ => {}
  requests : List Leased := []
  exchanges : List (Leased × ProviderReply) := []

/-- `moment` is what the clock of the worker shows. -/
inductive FleetEvent (Arrival Source : Type) where
  | tick (elapsed : Nat)
  | arrive (arrival : Arrival)
  | lease (worker : Nat) (moment : Nat) (source : Source) (call : Call)
  | reply (worker : Nat) (reply : ProviderReply)
  | settle (worker : Nat) (moment : Nat) (call : Call)
  | crash (worker : Nat)

section Loop

variable {Tables Arrival Source Leased Answer : Type}
  (service : WorkerService Tables Arrival Source Leased Answer)

namespace Fleet

/-- A worker between two rows asks its circuit and then for a row, which it sends. -/
def lease (fleet : Fleet Tables Leased) (worker moment : Nat) (source : Source)
    (call : Call) : Fleet Tables Leased :=
  match fleet.phases worker with
  | .idle =>
      let (opened, circuit) := (fleet.circuits worker).isOpen moment
      let asked := { fleet with circuits := Function.update fleet.circuits worker circuit }
      if opened || call == .unreached then asked
      else match service.lease source fleet.clock fleet.tables with
        | .error _ => asked
        | .ok (tables, leased) =>
            match call, leased with
            | .answered, some leased =>
                { asked with
                  tables
                  phases := Function.update fleet.phases worker (.waiting leased)
                  requests := fleet.requests ++ [leased] }
            | _, _ => { asked with tables }
  | _ => fleet

def reply (fleet : Fleet Tables Leased) (worker : Nat) (reply : ProviderReply) :
    Fleet Tables Leased :=
  match fleet.phases worker with
  | .waiting leased =>
      { fleet with
        phases := Function.update fleet.phases worker (.answered leased reply)
        exchanges := fleet.exchanges ++ [(leased, reply)] }
  | _ => fleet

/-- The circuit hears of a success when the provider accepted and the row was settled. -/
def settle (fleet : Fleet Tables Leased) (worker moment : Nat) (call : Call) :
    Fleet Tables Leased :=
  match fleet.phases worker with
  | .answered leased reply =>
      let (tables, updated) :=
        if call == .unreached then (fleet.tables, false)
        else service.settle fleet.clock leased (service.result reply) fleet.tables
      { fleet with
        tables
        phases := Function.update fleet.phases worker .idle
        circuits := Function.update fleet.circuits worker
          ((fleet.circuits worker).record moment
            (call == .answered && updated && (service.result reply).isOk)) }
  | _ => fleet

def step (fleet : Fleet Tables Leased) :
    FleetEvent Arrival Source → Fleet Tables Leased
  | .tick elapsed => { fleet with clock := fleet.clock + elapsed }
  | .arrive arrival => { fleet with tables := service.arrive arrival fleet.tables }
  | .lease worker moment source call => fleet.lease service worker moment source call
  | .reply worker reply => fleet.reply worker reply
  | .settle worker moment call => fleet.settle service worker moment call
  | .crash worker =>
      { fleet with
        phases := Function.update fleet.phases worker .idle
        circuits := Function.update fleet.circuits worker {} }

end Fleet

/-! ## What the loop keeps -/

/-- A property of the requests, the exchanges and the tables that the calls of the queue
keep. -/
structure WorkerService.Keeps (good : List Leased → List (Leased × ProviderReply) → Tables → Prop) :
    Prop where
  more : ∀ {requests exchanges tables} exchange,
    good requests exchanges tables → good requests (exchanges ++ [exchange]) tables
  arrive : ∀ {requests exchanges tables} arrival,
    good requests exchanges tables → good requests exchanges (service.arrive arrival tables)
  lease : ∀ {requests exchanges tables source now after leased}, good requests exchanges tables →
    service.lease source now tables = .ok (after, leased) →
      good requests exchanges after ∧ good (requests ++ leased.toList) exchanges after
  settle : ∀ {requests exchanges tables leased reply} now, leased ∈ requests →
    (leased, reply) ∈ exchanges → good requests exchanges tables →
      good requests exchanges (service.settle now leased (service.result reply) tables).1

/-- What a worker holds comes from a request, and what it settles from an exchange. -/
structure Honest (good : List Leased → List (Leased × ProviderReply) → Tables → Prop)
    (fleet : Fleet Tables Leased) : Prop where
  tables : good fleet.requests fleet.exchanges fleet.tables
  waiting : ∀ worker leased, fleet.phases worker = .waiting leased → leased ∈ fleet.requests
  answered : ∀ worker leased reply, fleet.phases worker = .answered leased reply →
    leased ∈ fleet.requests ∧ (leased, reply) ∈ fleet.exchanges

variable {service} {good : List Leased → List (Leased × ProviderReply) → Tables → Prop}
  {fleet : Fleet Tables Leased}

/-- A worker that has nothing in hand. -/
theorem honest_idle (honest : Honest good fleet) (worker : Nat) {tables : Tables}
    (kept : good fleet.requests fleet.exchanges tables) (circuits : Nat → DeliveryCircuit) :
    Honest good { fleet with
      tables
      phases := Function.update fleet.phases worker .idle
      circuits } := by
  refine ⟨kept, ?_, ?_⟩
  · intro other held phase
    dsimp only at phase ⊢
    by_cases own : other = worker
    · subst own
      rw [Function.update_self] at phase
      cases phase
    · rw [Function.update_of_ne own] at phase
      exact honest.waiting other held phase
  · intro other held reply phase
    dsimp only at phase ⊢
    by_cases own : other = worker
    · subst own
      rw [Function.update_self] at phase
      cases phase
    · rw [Function.update_of_ne own] at phase
      exact honest.answered other held reply phase

/-- A worker that sends what it leased. -/
theorem honest_sent (honest : Honest good fleet) (worker : Nat) (leased : Leased) {tables : Tables}
    (kept : good (fleet.requests ++ [leased]) fleet.exchanges tables)
    (circuits : Nat → DeliveryCircuit) :
    Honest good { fleet with
      tables
      phases := Function.update fleet.phases worker (.waiting leased)
      circuits
      requests := fleet.requests ++ [leased] } := by
  refine ⟨kept, ?_, ?_⟩
  · intro other held phase
    dsimp only at phase ⊢
    by_cases own : other = worker
    · subst own
      rw [Function.update_self] at phase
      cases phase
      exact List.mem_append_right _ (List.mem_singleton.mpr rfl)
    · rw [Function.update_of_ne own] at phase
      exact List.mem_append_left _ (honest.waiting other held phase)
  · intro other held reply phase
    dsimp only at phase ⊢
    by_cases own : other = worker
    · subst own
      rw [Function.update_self] at phase
      cases phase
    · rw [Function.update_of_ne own] at phase
      obtain ⟨sent, exchanged⟩ := honest.answered other held reply phase
      exact ⟨List.mem_append_left _ sent, exchanged⟩

theorem honest_lease (keeps : service.Keeps good) (honest : Honest good fleet)
    (worker moment : Nat) (source : Source) (call : Call) :
    Honest good (fleet.lease service worker moment source call) := by
  unfold Fleet.lease
  split
  · dsimp only
    split
    · exact ⟨honest.tables, honest.waiting, honest.answered⟩
    · split
      · exact ⟨honest.tables, honest.waiting, honest.answered⟩
      · rename_i tables leased granted
        obtain ⟨unsent, sent⟩ := keeps.lease honest.tables granted
        split
        · exact honest_sent honest worker _ sent _
        · exact ⟨unsent, honest.waiting, honest.answered⟩
  · exact honest

theorem honest_reply (keeps : service.Keeps good) (honest : Honest good fleet) (worker : Nat)
    (reply : ProviderReply) : Honest good (fleet.reply worker reply) := by
  unfold Fleet.reply
  split
  · rename_i leased waiting
    refine ⟨keeps.more _ honest.tables, ?_, ?_⟩
    · intro other held phase
      dsimp only at phase ⊢
      by_cases own : other = worker
      · subst own
        rw [Function.update_self] at phase
        cases phase
      · rw [Function.update_of_ne own] at phase
        exact honest.waiting other held phase
    · intro other held exchanged phase
      dsimp only at phase ⊢
      by_cases own : other = worker
      · subst own
        rw [Function.update_self] at phase
        cases phase
        exact ⟨honest.waiting other leased waiting,
          List.mem_append_right _ (List.mem_singleton.mpr rfl)⟩
      · rw [Function.update_of_ne own] at phase
        obtain ⟨sent, before⟩ := honest.answered other held exchanged phase
        exact ⟨sent, List.mem_append_left _ before⟩
  · exact honest

theorem honest_settle (keeps : service.Keeps good) (honest : Honest good fleet)
    (worker moment : Nat) (call : Call) :
    Honest good (fleet.settle service worker moment call) := by
  unfold Fleet.settle
  split
  · rename_i leased reply phase
    obtain ⟨sent, exchanged⟩ := honest.answered worker leased reply phase
    refine honest_idle honest worker ?_ _
    cases call with
    | unreached => exact honest.tables
    | unanswered | answered => exact keeps.settle fleet.clock sent exchanged honest.tables
  · exact honest

/-- Whatever the events are, the loops keep what the calls of their queue keep. -/
theorem run_honest (keeps : service.Keeps good) (honest : Honest good fleet)
    (events : List (FleetEvent Arrival Source)) :
    Honest good (Machine.run (Fleet.step service) fleet events) := by
  refine Machine.run_invariant_always _ (Honest good) ?_ _ events honest
  intro fleet event honest
  cases event with
  | tick elapsed => exact ⟨honest.tables, honest.waiting, honest.answered⟩
  | arrive arrival =>
      exact ⟨keeps.arrive arrival honest.tables, honest.waiting, honest.answered⟩
  | lease worker moment source call => exact honest_lease keeps honest worker moment source call
  | reply worker reply => exact honest_reply keeps honest worker reply
  | settle worker moment call => exact honest_settle keeps honest worker moment call
  | crash worker => exact honest_idle honest worker honest.tables _

/-- A fleet that has done nothing yet. -/
theorem honest_start {tables : Tables} (kept : good [] [] tables) : Honest good { tables } := by
  refine ⟨kept, ?_, ?_⟩
  · intro worker leased phase
    cases phase
  · intro worker leased reply phase
    cases phase

end Loop

/-! ## The rows of a queue -/

section Rows

variable {Subject Leased Answer : Type} {key : Leased → Uuid × Nat} {subject : Leased → Subject}
  {result : ProviderReply → Except String Answer} {requests : List Leased}
  {exchanges : List (Leased × ProviderReply)} {rows : List (QueueRow Subject)}

/-- An insertion with the defaults of the columns; the primary key of a row is not taken. -/
def enqueue (row : QueueRow Subject) (rows : List (QueueRow Subject)) : List (QueueRow Subject) :=
  if row.isNew && row.failureCode.isNone && !rows.any (QueueRow.isRow row.tenantId row.id) then
    rows ++ [row]
  else rows

/-- The provider has answered a request of a row, and what the worker made of the reply. -/
def Exchanged (key : Leased → Uuid × Nat) (subject : Leased → Subject)
    (exchanges : List (Leased × ProviderReply)) (row : QueueRow Subject)
    (accepted : ProviderReply → Prop) : Prop :=
  ∃ leased reply, (leased, reply) ∈ exchanges ∧ accepted reply ∧ key leased = row.key ∧
    subject leased = row.subject

/-- What the rows of a queue say about the requests and the replies: a row was sent at most
as often as it was leased, it is done when the provider accepted one of its requests, given
up after the last of its attempts, and its failure code is the one of a reply. -/
structure Accounted (key : Leased → Uuid × Nat) (subject : Leased → Subject)
    (result : ProviderReply → Except String Answer) (requests : List Leased)
    (exchanges : List (Leased × ProviderReply)) (rows : List (QueueRow Subject)) : Prop where
  keys : Table.KeysUnique QueueRow.key rows
  known : ∀ leased ∈ requests, ∃ row ∈ rows, row.key = key leased ∧ row.subject = subject leased
  attempts : ∀ row ∈ rows,
    (requests.countP fun leased => key leased = row.key) ≤ row.attemptCount ∧
      row.attemptCount ≤ maxAttemptCount
  finished : ∀ row ∈ rows, row.status = .done →
    Exchanged key subject exchanges row fun reply => ∃ answer, result reply = .ok answer
  givenUp : ∀ row ∈ rows, row.status = .failed → retryLimit ≤ row.attemptCount
  refused : ∀ row ∈ rows, ∀ code, row.failureCode = some code →
    Exchanged key subject exchanges row fun reply => result reply = .error code

theorem Exchanged.more {row : QueueRow Subject} {accepted : ProviderReply → Prop}
    (exchanged : Exchanged key subject exchanges row accepted)
    (exchange : Leased × ProviderReply) :
    Exchanged key subject (exchanges ++ [exchange]) row accepted := by
  obtain ⟨leased, reply, member, own⟩ := exchanged
  exact ⟨leased, reply, List.mem_append_left _ member, own⟩

theorem accounted_nil : Accounted key subject result [] exchanges [] := by
  refine ⟨List.nodup_nil, ?_, ?_, ?_, ?_, ?_⟩
  · intro leased sent
    cases sent
  · intro row member
    cases member
  · intro row member
    cases member
  · intro row member
    cases member
  · intro row member
    cases member

theorem Accounted.more (accounted : Accounted key subject result requests exchanges rows)
    (exchange : Leased × ProviderReply) :
    Accounted key subject result requests (exchanges ++ [exchange]) rows := by
  refine { accounted with finished := ?_, refused := ?_ }
  · intro row member done
    exact (accounted.finished row member done).more exchange
  · intro row member code failed
    exact (accounted.refused row member code failed).more exchange

theorem Accounted.arrived (accounted : Accounted key subject result requests exchanges rows)
    (row : QueueRow Subject) :
    Accounted key subject result requests exchanges (enqueue row rows) := by
  unfold enqueue
  split
  · rename_i taken
    simp only [QueueRow.isNew, Bool.and_eq_true, beq_iff_eq, Option.isNone_iff_eq_none,
      Bool.not_eq_true'] at taken
    obtain ⟨⟨⟨⟨pending, unsent⟩, -⟩, unfailed⟩, free⟩ := taken
    have fresh : ∀ old ∈ rows, old.key ≠ row.key := by
      intro old member same
      have taken := List.any_eq_false.mp free old member
      obtain ⟨tenant, id⟩ := Prod.mk.inj same
      exact taken (Queue.isRow_iff.mpr ⟨tenant, id⟩)
    refine ⟨accounted.keys.append QueueRow.key fresh, ?_, ?_, ?_, ?_, ?_⟩
    · intro leased sent
      obtain ⟨old, member, own⟩ := accounted.known leased sent
      exact ⟨old, List.mem_append_left _ member, own⟩
    · intro other member
      rcases List.mem_append.mp member with old | last
      · exact accounted.attempts other old
      · obtain rfl := List.mem_singleton.mp last
        rw [unsent, Nat.le_zero, List.countP_eq_zero]
        refine ⟨fun leased sent same => ?_, Nat.zero_le _⟩
        obtain ⟨old, known, own, -⟩ := accounted.known leased sent
        exact fresh old known (own.trans (of_decide_eq_true same))
    · intro other member done
      rcases List.mem_append.mp member with old | last
      · exact accounted.finished other old done
      · obtain rfl := List.mem_singleton.mp last
        rw [pending] at done
        cases done
    · intro other member failed
      rcases List.mem_append.mp member with old | last
      · exact accounted.givenUp other old failed
      · obtain rfl := List.mem_singleton.mp last
        rw [pending] at failed
        cases failed
    · intro other member code failed
      rcases List.mem_append.mp member with old | last
      · exact accounted.refused other old code failed
      · obtain rfl := List.mem_singleton.mp last
        rw [unfailed] at failed
        cases failed
  · exact accounted

/-- An update of the row of a primary key that keeps its subject: what the row says is all
there is to see to. -/
theorem Accounted.changed (accounted : Accounted key subject result requests exchanges rows)
    {more : List Leased} {row : QueueRow Subject} (member : row ∈ rows)
    {selects : QueueRow Subject → Bool} {change : QueueRow Subject → QueueRow Subject}
    (selected : selects row = true) (own : ∀ other, selects other = true → other.key = row.key)
    (keys : ∀ row, (change row).key = row.key) (subjects : (change row).subject = row.subject)
    (sent : ∀ leased ∈ more, key leased = row.key ∧ subject leased = row.subject)
    (attempts : row.attemptCount + more.length ≤ (change row).attemptCount ∧
      (change row).attemptCount ≤ maxAttemptCount)
    (finished : (change row).status = .done →
      Exchanged key subject exchanges row fun reply => ∃ answer, result reply = .ok answer)
    (givenUp : (change row).status = .failed → retryLimit ≤ (change row).attemptCount)
    (refused : ∀ code, (change row).failureCode = some code →
      Exchanged key subject exchanges row fun reply => result reply = .error code) :
    Accounted key subject result (requests ++ more) exchanges (Table.update selects change rows) := by
  have changed : ∀ other ∈ rows, selects other = true → other = row := fun other listed chosen =>
    accounted.keys.eq_of_mem QueueRow.key listed member (own other chosen)
  have there : change row ∈ Table.update selects change rows :=
    Table.mem_update.mpr (.inr ⟨row, member, selected, rfl⟩)
  refine ⟨accounted.keys.update QueueRow.key keys, ?_, ?_, ?_, ?_, ?_⟩
  · intro leased listed
    rcases List.mem_append.mp listed with before | last
    · obtain ⟨other, known, same⟩ := accounted.known leased before
      by_cases chosen : selects other = true
      · obtain rfl := changed other known chosen
        exact ⟨_, there, by rw [keys, subjects]; exact same⟩
      · exact ⟨other, Table.mem_update.mpr (.inl ⟨known, by simpa using chosen⟩), same⟩
    · obtain ⟨sameKey, sameSubject⟩ := sent leased last
      exact ⟨_, there, by rw [keys, subjects]; exact ⟨sameKey.symm, sameSubject.symm⟩⟩
  · intro other listed
    rw [List.countP_append]
    rcases Table.mem_update.mp listed with ⟨old, unselected⟩ | ⟨old, before, chosen, rfl⟩
    · obtain ⟨counted, most⟩ := accounted.attempts other old
      have none : more.countP (fun leased => key leased = other.key) = 0 := by
        rw [List.countP_eq_zero]
        intro leased last same
        have sameRow : other = row := accounted.keys.eq_of_mem QueueRow.key old member
          ((of_decide_eq_true same).symm.trans (sent leased last).1)
        rw [sameRow, selected] at unselected
        cases unselected
      exact ⟨by omega, most⟩
    · obtain rfl := changed old before chosen
      have counted := (accounted.attempts old before).1
      have last : more.countP (fun leased => key leased = old.key) ≤ more.length :=
        List.countP_le_length
      rw [keys]
      exact ⟨by omega, attempts.2⟩
  · intro other listed done
    rcases Table.mem_update.mp listed with ⟨old, _⟩ | ⟨old, before, chosen, rfl⟩
    · exact accounted.finished other old done
    · obtain rfl := changed old before chosen
      obtain ⟨leased, reply, exchange, accepted, own⟩ := finished done
      exact ⟨leased, reply, exchange, accepted, by rw [keys, subjects]; exact own⟩
  · intro other listed failed
    rcases Table.mem_update.mp listed with ⟨old, _⟩ | ⟨old, before, chosen, rfl⟩
    · exact accounted.givenUp other old failed
    · obtain rfl := changed old before chosen
      exact givenUp failed
  · intro other listed code failed
    rcases Table.mem_update.mp listed with ⟨old, _⟩ | ⟨old, before, chosen, rfl⟩
    · exact accounted.refused other old code failed
    · obtain rfl := changed old before chosen
      obtain ⟨leased, reply, exchange, rejected, own⟩ := refused code failed
      exact ⟨leased, reply, exchange, rejected, by rw [keys, subjects]; exact own⟩

/-- A lease, and at most one request for the row it takes. -/
theorem Accounted.requested (accounted : Accounted key subject result requests exchanges rows)
    {now : Nat} {after : List (QueueRow Subject)} {found : Option (QueueRow Subject)}
    (lease : Queue.lease now rows = .ok (after, found)) {more : List Leased}
    (own : ∀ leased ∈ more, ∃ row, found = some row ∧ key leased = row.key ∧
      subject leased = row.subject) (single : more.length ≤ 1) :
    Accounted key subject result (requests ++ more) exchanges after := by
  rcases Queue.leaseFirst_cases (QueueRow.isDue now) (QueueRow.lease now) rows with
    ⟨_, nothing⟩ | ⟨row, first, ⟨_, refused⟩ | ⟨bound, taken⟩⟩
  · obtain ⟨rfl, rfl⟩ := Prod.mk.inj (Except.ok.inj (nothing.symm.trans lease))
    have none : more = [] := by
      refine List.eq_nil_iff_forall_not_mem.mpr fun leased member => ?_
      obtain ⟨row, impossible, -⟩ := own leased member
      cases impossible
    rw [none, List.append_nil]
    exact accounted
  · rw [Queue.lease, refused] at lease
    cases lease
  · obtain ⟨rfl, rfl⟩ := Prod.mk.inj (Except.ok.inj (taken.symm.trans lease))
    have member := (Queue.firstDue_some first).1
    refine accounted.changed member (Queue.isRow_self row) ?_ (QueueRow.lease_key now) rfl ?_
      ⟨Nat.add_le_add_left single _, bound⟩ ?_ ?_ (accounted.refused row member)
    · intro other selected
      obtain ⟨tenant, id⟩ := Queue.isRow_iff.mp selected
      exact Prod.ext tenant id
    · intro leased sent
      obtain ⟨found, same, sameKey, sameSubject⟩ := own leased sent
      obtain rfl := Option.some.inj same
      exact ⟨sameKey, sameSubject⟩
    · intro done
      cases done
    · intro failed
      cases failed

/-- A lease, whether or not the worker hears of it. -/
theorem Accounted.leased (accounted : Accounted key subject result requests exchanges rows)
    {now : Nat} {after : List (QueueRow Subject)} {found : Option (QueueRow Subject)}
    (lease : Queue.lease now rows = .ok (after, found)) {leased : Option Leased}
    (own : ∀ sent, leased = some sent → ∃ row, found = some row ∧ key sent = row.key ∧
      subject sent = row.subject) :
    Accounted key subject result requests exchanges after ∧
      Accounted key subject result (requests ++ leased.toList) exchanges after := by
  constructor
  · have none : ∀ sent ∈ ([] : List Leased), ∃ row, found = some row ∧ key sent = row.key ∧
        subject sent = row.subject := by
      intro sent impossible
      cases impossible
    have kept := accounted.requested lease none (Nat.zero_le 1)
    rw [List.append_nil] at kept
    exact kept
  · refine accounted.requested lease ?_ Option.length_toList_le
    intro sent member
    exact own sent (Option.mem_toList.mp member)

/-- What a worker makes of a reply settles the row it leased. -/
theorem Accounted.settled (accounted : Accounted key subject result requests exchanges rows)
    {now : Nat} {leased : Leased} {reply : ProviderReply} (sent : leased ∈ requests)
    (exchanged : (leased, reply) ∈ exchanges) {change : QueueRow Subject → QueueRow Subject}
    (change_eq : (change = QueueRow.complete now ∧ ∃ answer, result reply = .ok answer) ∨
      ∃ code, change = QueueRow.fail now code ∧ result reply = .error code ∧ code ∈ failureCodes) :
    Accounted key subject result requests exchanges
      (Table.update (Queue.isLeasedRow (key leased).1 (key leased).2) change rows) := by
  obtain ⟨row, member, sameKey, sameSubject⟩ := accounted.known leased sent
  have own : ∀ other : QueueRow Subject,
      Queue.isLeasedRow (key leased).1 (key leased).2 other = true → other.key = row.key := by
    intro other chosen
    obtain ⟨⟨tenant, id⟩, -⟩ := Queue.isLeasedRow_iff.mp chosen
    exact (Prod.ext tenant id : other.key = key leased).trans sameKey.symm
  by_cases selected : Queue.isLeasedRow (key leased).1 (key leased).2 row = true
  · have bounds := (accounted.attempts row member).2
    rw [← List.append_nil requests]
    rcases change_eq with ⟨rfl, accepted⟩ | ⟨code, rfl, rejected, listed⟩
    · refine accounted.changed member selected own (QueueRow.complete_key now) rfl ?_
        ⟨le_refl _, bounds⟩ ?_ ?_ ?_
      · intro leased last
        cases last
      · intro _
        exact ⟨leased, reply, exchanged, accepted, sameKey.symm, sameSubject.symm⟩
      · intro failed
        cases failed
      · intro code failed
        cases failed
    · refine accounted.changed member selected own (QueueRow.fail_key now code) rfl ?_
        ⟨le_refl _, bounds⟩ ?_ ?_ ?_
      · intro leased last
        cases last
      · intro done
        unfold QueueRow.fail at done
        dsimp only at done
        split at done <;> cases done
      · intro failed
        unfold QueueRow.fail at failed
        dsimp only at failed
        split at failed
        · assumption
        · cases failed
      · intro shown failed
        obtain rfl : truncatedCode code = shown := Option.some.inj failed
        rw [truncatedCode_of_mem listed]
        exact ⟨leased, reply, exchanged, rejected, sameKey.symm, sameSubject.symm⟩
  · have untouched : Table.update (Queue.isLeasedRow (key leased).1 (key leased).2) change rows =
        rows := by
      refine Table.update_eq_self fun other listed chosen => ?_
      have same := accounted.keys.eq_of_mem QueueRow.key listed member (own other chosen)
      exact absurd (same ▸ chosen) selected
    rw [untouched]
    exact accounted

end Rows

/-! ## The notification workers -/

def LeasedDelivery.key (leased : LeasedDelivery) : Uuid × Nat :=
  (leased.tenantId, leased.deliveryId)

def LeasedDelivery.subject (leased : LeasedDelivery) : DeliverySubject :=
  ⟨leased.alertInstanceId, leased.channel, leased.destinationRef⟩

/-- The functions that settle a delivery return no row when there is none to settle, which
fails the call. -/
def notificationService : WorkerService (List DeliveryRow) DeliveryRow (List AlertRow) LeasedDelivery
    Unit where
  arrive := enqueue
  lease alerts now deliveries := leaseNotificationDelivery now alerts deliveries
  result := notificationResult
  settle now leased result deliveries :=
    match result with
    | .ok () => completeNotificationDelivery now leased.tenantId leased.deliveryId deliveries
    | .error code =>
        failNotificationDelivery now leased.tenantId leased.deliveryId code deliveries

theorem joinAlert_own {alerts : List AlertRow} {delivery : DeliveryRow} {leased : LeasedDelivery}
    (joined : joinAlert alerts delivery = some leased) :
    leased.key = delivery.key ∧ leased.subject = delivery.subject := by
  unfold joinAlert at joined
  obtain ⟨alert, _, same⟩ := Option.bind_eq_some_iff.mp joined
  obtain rfl := Option.some.inj same
  exact ⟨rfl, rfl⟩

/-- What `lease` returns is read from the row that was leased. -/
theorem leaseNotificationDelivery_own {now : Nat} {alerts : List AlertRow}
    {rows after : List DeliveryRow} {leased : Option LeasedDelivery}
    (granted : leaseNotificationDelivery now alerts rows = .ok (after, leased)) :
    ∃ found, Queue.lease now rows = .ok (after, found) ∧ leased = found.bind (joinAlert alerts) := by
  unfold leaseNotificationDelivery at granted
  cases lease : Queue.lease now rows with
  | error error =>
      rw [lease] at granted
      cases granted
  | ok pair =>
      obtain ⟨rows, found⟩ := pair
      rw [lease] at granted
      cases granted
      exact ⟨found, rfl, rfl⟩

theorem notificationService_keeps :
    notificationService.Keeps (Accounted LeasedDelivery.key LeasedDelivery.subject
      notificationResult) := by
  refine ⟨fun exchange accounted => accounted.more exchange,
    fun row accounted => accounted.arrived row, ?_, ?_⟩
  · intro requests exchanges tables alerts now after leased accounted granted
    obtain ⟨found, lease, same⟩ := leaseNotificationDelivery_own granted
    refine accounted.leased lease fun sent taken => ?_
    obtain ⟨row, first, joined⟩ := Option.bind_eq_some_iff.mp (same.symm.trans taken)
    exact ⟨row, first, joinAlert_own joined⟩
  · intro requests exchanges tables leased reply now sent exchanged accounted
    show Accounted _ _ _ _ _ (notificationService.settle now leased (notificationResult reply) tables).1
    cases made : notificationResult reply with
    | ok answer => exact accounted.settled sent exchanged (.inl ⟨rfl, answer, made⟩)
    | error code =>
        exact accounted.settled sent exchanged
          (.inr ⟨code, rfl, made, notificationResult_error made⟩)

/-- Whatever the workers, the provider, the clock and the database do: a delivery was sent
at most as often as it was leased, it is delivered when the provider accepted a request
for its alert, channel and destination, given up after the last of its attempts, and the
failure it shows is what the provider answered to one of its requests. -/
theorem deliveries_answered (events : List (FleetEvent DeliveryRow (List AlertRow))) :
    let fleet : Fleet (List DeliveryRow) LeasedDelivery :=
      Machine.run (Fleet.step notificationService) { tables := [] } events
    ∀ delivery ∈ fleet.tables,
      ((fleet.requests.countP fun leased => leased.key = delivery.key) ≤ delivery.attemptCount ∧
        delivery.attemptCount ≤ maxAttemptCount) ∧
      (delivery.status = .done → ∃ leased status body,
        (leased, .response status body) ∈ fleet.exchanges ∧ isSuccess status = true ∧
          leased.key = delivery.key ∧ leased.subject = delivery.subject) ∧
      (delivery.status = .failed → retryLimit ≤ delivery.attemptCount) ∧
      ∀ code, delivery.failureCode = some code → ∃ leased reply,
        (leased, reply) ∈ fleet.exchanges ∧ notificationResult reply = .error code ∧
          leased.key = delivery.key ∧ leased.subject = delivery.subject := by
  intro fleet delivery member
  have accounted := (run_honest notificationService_keeps (honest_start accounted_nil) events).tables
  refine ⟨accounted.attempts delivery member, ?_, accounted.givenUp delivery member,
    accounted.refused delivery member⟩
  intro done
  obtain ⟨leased, reply, exchanged, ⟨_, made⟩, own⟩ := accounted.finished delivery member done
  obtain ⟨status, body, rfl, success⟩ := notificationResult_ok made
  exact ⟨leased, status, body, exchanged, success, own⟩

/-! ## The reasoning workers -/

def LeasedJob.key (leased : LeasedJob) : Uuid × Nat :=
  (leased.tenantId, leased.jobId)

def LeasedJob.subject (leased : LeasedJob) : JobSubject :=
  ⟨leased.nodeId, leased.messageId⟩

section Reasoning

variable {Digest : Type}

/-- The call of `complete_reasoning_job` succeeds whether or not it found the job running. -/
def reasoningService : WorkerService JobTables JobRow (List (MessageRow Digest)) LeasedJob Value where
  arrive job tables := { tables with jobs := enqueue job tables.jobs }
  lease messages now tables :=
    match leaseReasoningJob now messages tables.jobs with
    | .ok (jobs, leased) => .ok ({ tables with jobs }, leased)
    | .error error => .error error
  result := reasoningResult
  settle now leased result tables :=
    match result with
    | .ok result =>
        match completeReasoningJob now leased.tenantId leased.jobId result tables with
        | .ok (after, _) => (after, true)
        | .error _ => (tables, false)
    | .error code =>
        let (jobs, found) := failReasoningJob now leased.tenantId leased.jobId code tables.jobs
        ({ tables with jobs }, found)

/-- The jobs are accounted for, every result answers a request of its job, and a completed
job has a result. -/
structure JobsAccounted (requests : List LeasedJob) (exchanges : List (LeasedJob × ProviderReply))
    (tables : JobTables) : Prop where
  jobs : Accounted LeasedJob.key LeasedJob.subject reasoningResult requests exchanges tables.jobs
  results : ∀ row ∈ tables.results, ∃ leased reply, leased ∈ requests ∧
    (leased, reply) ∈ exchanges ∧ reasoningResult reply = .ok row.result ∧ leased.key = row.key
  stored : ∀ job ∈ tables.jobs, job.status = .done → ∃ row ∈ tables.results, row.key = job.key

theorem leaseReasoningJob_own {now : Nat} {messages : List (MessageRow Digest)}
    {jobs after : List JobRow} {leased : Option LeasedJob}
    (granted : leaseReasoningJob now messages jobs = .ok (after, leased)) :
    ∃ found, Queue.lease now jobs = .ok (after, found) ∧
      ∀ sent, leased = some sent → ∃ job, found = some job ∧ sent.key = job.key ∧
        sent.subject = job.subject := by
  unfold leaseReasoningJob at granted
  cases lease : Queue.lease now jobs with
  | error error =>
      rw [lease] at granted
      cases granted
  | ok pair =>
      obtain ⟨rows, found⟩ := pair
      rw [lease] at granted
      cases granted
      refine ⟨found, rfl, fun sent taken => ?_⟩
      obtain ⟨job, first, joined⟩ := Option.bind_eq_some_iff.mp taken
      obtain ⟨message, _, same⟩ := Option.bind_eq_some_iff.mp joined
      obtain rfl := Option.some.inj same
      exact ⟨job, first, rfl, rfl⟩

/-- A lease completes no job. -/
theorem lease_done {now : Nat} {jobs after : List JobRow} {found : Option JobRow}
    (lease : Queue.lease now jobs = .ok (after, found)) {job : JobRow} (member : job ∈ after)
    (done : job.status = .done) : job ∈ jobs := by
  rcases Queue.leaseFirst_cases (QueueRow.isDue now) (QueueRow.lease now) jobs with
    ⟨_, nothing⟩ | ⟨row, first, ⟨_, refused⟩ | ⟨bound, taken⟩⟩
  · obtain ⟨rfl, rfl⟩ := Prod.mk.inj (Except.ok.inj (nothing.symm.trans lease))
    exact member
  · rw [Queue.lease, refused] at lease
    cases lease
  · obtain ⟨rfl, rfl⟩ := Prod.mk.inj (Except.ok.inj (taken.symm.trans lease))
    rcases Table.mem_update.mp member with ⟨old, _⟩ | ⟨old, _, _, rfl⟩
    · exact old
    · cases done

theorem completeReasoningJob_ok {now : Nat} {tenantId : Uuid} {jobId : Nat} {result : Value}
    {tables after : JobTables} {found : Bool}
    (stored : completeReasoningJob now tenantId jobId result tables = .ok (after, found)) :
    after.jobs =
        Table.update (Queue.isLeasedRow tenantId jobId) (QueueRow.complete now) tables.jobs ∧
      after.results = Table.upsert (ResultRow.isResult tenantId jobId)
        (fun row => { row with result }) ⟨tenantId, jobId, result, now⟩ tables.results := by
  unfold completeReasoningJob at stored
  split at stored
  · cases stored
  · split at stored
    · cases stored
    · cases stored
      exact ⟨rfl, rfl⟩

/-- The result of a job replaces the one it had. -/
theorem mem_upsert_result {now : Nat} {tenantId : Uuid} {jobId : Nat} {result : Value}
    {results : List ResultRow} {row : ResultRow}
    (member : row ∈ Table.upsert (ResultRow.isResult tenantId jobId)
      (fun row => { row with result }) ⟨tenantId, jobId, result, now⟩ results) :
    row ∈ results ∨ (row.key = (tenantId, jobId) ∧ row.result = result) := by
  unfold Table.upsert at member
  split at member
  · rcases Table.mem_update.mp member with ⟨old, _⟩ | ⟨old, _, own, rfl⟩
    · exact .inl old
    · obtain ⟨tenant, id⟩ := isResult_iff.mp own
      exact .inr ⟨Prod.ext tenant id, rfl⟩
  · rcases List.mem_append.mp member with old | new
    · exact .inl old
    · obtain rfl := List.mem_singleton.mp new
      exact .inr ⟨rfl, rfl⟩

/-- An upsert forgets no key and has the one it is for. -/
theorem upsert_result_keys {now : Nat} {tenantId : Uuid} {jobId : Nat} {result : Value}
    {results : List ResultRow} {key : Uuid × Nat}
    (known : key = (tenantId, jobId) ∨ ∃ row ∈ results, row.key = key) :
    ∃ row ∈ Table.upsert (ResultRow.isResult tenantId jobId)
      (fun row => { row with result }) ⟨tenantId, jobId, result, now⟩ results, row.key = key := by
  rcases known with rfl | ⟨row, member, rfl⟩
  · have held : (Table.upsert (ResultRow.isResult tenantId jobId) (fun row => { row with result })
        ⟨tenantId, jobId, result, now⟩ results).any (ResultRow.isResult tenantId jobId) = true :=
      Table.any_upsert_self (isResult_iff.mpr ⟨rfl, rfl⟩) fun old own => own
    obtain ⟨row, member, own⟩ := List.any_eq_true.mp held
    obtain ⟨tenant, id⟩ := isResult_iff.mp own
    exact ⟨row, member, Prod.ext tenant id⟩
  · unfold Table.upsert
    split
    · by_cases own : row.isResult tenantId jobId = true
      · exact ⟨_, Table.mem_update.mpr (.inr ⟨row, member, own, rfl⟩), rfl⟩
      · exact ⟨row, Table.mem_update.mpr (.inl ⟨member, by simpa using own⟩), rfl⟩
    · exact ⟨row, List.mem_append_left _ member, rfl⟩

section Kept

variable {requests : List LeasedJob} {exchanges : List (LeasedJob × ProviderReply)}
  {tables : JobTables}

theorem JobsAccounted.more (accounted : JobsAccounted requests exchanges tables)
    (exchange : LeasedJob × ProviderReply) :
    JobsAccounted requests (exchanges ++ [exchange]) tables := by
  refine ⟨accounted.jobs.more exchange, ?_, accounted.stored⟩
  intro row member
  obtain ⟨leased, reply, sent, exchanged, own⟩ := accounted.results row member
  exact ⟨leased, reply, sent, List.mem_append_left _ exchanged, own⟩

theorem JobsAccounted.arrived (accounted : JobsAccounted requests exchanges tables)
    (job : JobRow) : JobsAccounted requests exchanges { tables with jobs := enqueue job tables.jobs } := by
  refine ⟨accounted.jobs.arrived job, accounted.results, ?_⟩
  intro row member done
  dsimp only at member
  unfold enqueue at member
  split at member
  · rename_i new
    rcases List.mem_append.mp member with old | last
    · exact accounted.stored row old done
    · obtain rfl := List.mem_singleton.mp last
      simp only [QueueRow.isNew, done, Bool.and_eq_true, beq_iff_eq] at new
      cases new.1.1.1.1
  · exact accounted.stored row member done

/-- Requests that are added to those a result answers. -/
theorem JobsAccounted.leased (accounted : JobsAccounted requests exchanges tables) {now : Nat}
    {after : List JobRow} {found : Option JobRow}
    (lease : Queue.lease now tables.jobs = .ok (after, found)) {more : List LeasedJob}
    (jobs : Accounted LeasedJob.key LeasedJob.subject reasoningResult (requests ++ more) exchanges
      after) : JobsAccounted (requests ++ more) exchanges { tables with jobs := after } := by
  refine ⟨jobs, ?_, ?_⟩
  · intro row member
    obtain ⟨leased, reply, sent, own⟩ := accounted.results row member
    exact ⟨leased, reply, List.mem_append_left _ sent, own⟩
  · intro job member done
    exact accounted.stored job (lease_done lease member done) done

theorem JobsAccounted.completed (accounted : JobsAccounted requests exchanges tables) {now : Nat}
    {leased : LeasedJob} {reply : ProviderReply} {result : Value} {after : JobTables} {found : Bool}
    (sent : leased ∈ requests) (exchanged : (leased, reply) ∈ exchanges)
    (made : reasoningResult reply = .ok result)
    (stored : completeReasoningJob now leased.tenantId leased.jobId result tables =
      .ok (after, found)) : JobsAccounted requests exchanges after := by
  obtain ⟨jobs, results⟩ := completeReasoningJob_ok stored
  refine ⟨?_, ?_, ?_⟩
  · rw [jobs]
    exact accounted.jobs.settled sent exchanged (.inl ⟨rfl, result, made⟩)
  · intro row member
    rw [results] at member
    rcases mem_upsert_result member with old | ⟨own, same⟩
    · exact accounted.results row old
    · exact ⟨leased, reply, sent, exchanged, by rw [same]; exact made, own.symm⟩
  · intro job member done
    rw [jobs] at member
    rw [results]
    apply upsert_result_keys
    rcases Table.mem_update.mp member with ⟨old, _⟩ | ⟨old, _, own, rfl⟩
    · exact .inr (accounted.stored job old done)
    · obtain ⟨⟨tenant, id⟩, -⟩ := Queue.isLeasedRow_iff.mp own
      exact .inl (Prod.ext tenant id)

theorem JobsAccounted.failed (accounted : JobsAccounted requests exchanges tables) (now : Nat)
    {leased : LeasedJob} {reply : ProviderReply} {code : String} (sent : leased ∈ requests)
    (exchanged : (leased, reply) ∈ exchanges) (made : reasoningResult reply = .error code) :
    JobsAccounted requests exchanges { tables with
      jobs := (failReasoningJob now leased.tenantId leased.jobId code tables.jobs).1 } := by
  refine ⟨?_, accounted.results, ?_⟩
  · exact accounted.jobs.settled sent exchanged (.inr ⟨code, rfl, made, reasoningResult_error made⟩)
  · intro job member done
    rcases Table.mem_update.mp member with ⟨old, _⟩ | ⟨old, _, _, rfl⟩
    · exact accounted.stored job old done
    · unfold QueueRow.fail at done
      dsimp only at done
      split at done <;> cases done

end Kept

theorem reasoningService_keeps : (reasoningService : WorkerService JobTables JobRow
    (List (MessageRow Digest)) LeasedJob Value).Keeps JobsAccounted := by
  refine ⟨fun exchange accounted => accounted.more exchange,
    fun job accounted => accounted.arrived job, ?_, ?_⟩
  · intro requests exchanges tables messages now after leased accounted granted
    cases lease : leaseReasoningJob now messages tables.jobs with
    | error error =>
        have refused : (Except.error error : QueueResult (JobTables × Option LeasedJob)) = _ :=
          (by simp only [reasoningService, lease] : _ = _).symm.trans granted
        cases refused
    | ok pair =>
        obtain ⟨jobs, found⟩ := pair
        have same : Except.ok ({ tables with jobs }, found) =
            (Except.ok (after, leased) : QueueResult (JobTables × Option LeasedJob)) := by
          rw [← granted]
          simp only [reasoningService, lease]
        cases same
        obtain ⟨row, taken, own⟩ := leaseReasoningJob_own lease
        obtain ⟨unsent, sent⟩ := accounted.jobs.leased taken own
        have lost := accounted.leased taken (by rw [List.append_nil]; exact unsent)
        rw [List.append_nil] at lost
        exact ⟨lost, accounted.leased taken sent⟩
  · intro requests exchanges tables leased reply now sent exchanged accounted
    show JobsAccounted _ _ (reasoningService.settle now leased (reasoningResult reply) tables).1
    cases made : reasoningResult reply with
    | ok result =>
        cases stored : completeReasoningJob now leased.tenantId leased.jobId result tables with
        | error error =>
            simp only [reasoningService, stored]
            exact accounted
        | ok pair =>
            obtain ⟨after, found⟩ := pair
            simp only [reasoningService, stored]
            exact accounted.completed sent exchanged made stored
    | error code => exact accounted.failed now sent exchanged made

/-- Whatever the workers, the provider, the clock and the database do: every stored result
is an object the provider answered with success to a request that named the node and the
message of its job, a completed job has a result, and a job was sent at most as often as it
was leased, given up after the last of its attempts, and fails with what the provider
answered. -/
theorem results_answered (events : List (FleetEvent JobRow (List (MessageRow Digest)))) :
    let fleet : Fleet JobTables LeasedJob :=
      Machine.run (Fleet.step reasoningService) { tables := {} } events
    (∀ row ∈ fleet.tables.results, ∃ leased status, ∃ job ∈ fleet.tables.jobs,
      (leased, .response status (some row.result)) ∈ fleet.exchanges ∧ isSuccess status = true ∧
        row.result.isObject = true ∧ leased.key = row.key ∧ job.key = row.key ∧
        leased.subject = job.subject) ∧
    ∀ job ∈ fleet.tables.jobs,
      ((fleet.requests.countP fun leased => leased.key = job.key) ≤ job.attemptCount ∧
        job.attemptCount ≤ maxAttemptCount) ∧
      (job.status = .done → ∃ row ∈ fleet.tables.results, row.key = job.key) ∧
      (job.status = .failed → retryLimit ≤ job.attemptCount) ∧
      ∀ code, job.failureCode = some code → ∃ leased reply, (leased, reply) ∈ fleet.exchanges ∧
        reasoningResult reply = .error code ∧ leased.key = job.key ∧
        leased.subject = job.subject := by
  intro fleet
  have start : JobsAccounted [] [] {} := by
    refine ⟨accounted_nil, ?_, ?_⟩
    · intro row member
      cases member
    · intro job member
      cases member
  have accounted := (run_honest reasoningService_keeps (honest_start start) events).tables
  constructor
  · intro row member
    obtain ⟨leased, reply, sent, exchanged, made, own⟩ := accounted.results row member
    obtain ⟨status, rfl, success, object⟩ := reasoningResult_ok made
    obtain ⟨job, listed, sameKey, sameSubject⟩ := accounted.jobs.known leased sent
    exact ⟨leased, status, job, listed, exchanged, success, object, own, sameKey.trans own,
      sameSubject.symm⟩
  · intro job member
    exact ⟨accounted.jobs.attempts job member, accounted.stored job member,
      accounted.jobs.givenUp job member, accounted.jobs.refused job member⟩

end Reasoning

end SystemPilot.Cloud
