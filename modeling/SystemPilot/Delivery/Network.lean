import Mathlib.Tactic
import SystemPilot.Library.Machine
import SystemPilot.Agent.Coherence
import SystemPilot.Cloud.ExactlyOnce

/-!
# Agent and collector over a network

The agent's delivery machine and the collector's ingestion with the requests
and answers between them.  A request may reach the collector late, more than
once or never, and so may its answer reach the agent; either side may stop and
start again; other clients send what they like.
-/

set_option autoImplicit false

namespace SystemPilot.Delivery

open SystemPilot.Library
open SystemPilot.Telemetry
open SystemPilot.Spool
open SystemPilot.Agent
open SystemPilot.Cloud

/-! ## The HTTP exchange -/

/-- The status and the body of an error, as `ApiError` becomes a response. -/
structure ErrorResponse where
  status : Nat
  code : String
  message : String
  retry : Bool
  deriving DecidableEq, Repr

def intoResponse : ApiError → ErrorResponse
  | .unauthorized =>
      ⟨401, "unauthorized", "node credential is missing, expired, revoked, or invalid", false⟩
  | .invalid message => ⟨422, "invalid_request", message, false⟩
  | .saturated =>
      ⟨503, "saturated", "collector admission capacity is exhausted; retry with jitter", true⟩
  | .database =>
      ⟨503, "storage_unavailable", "telemetry was not acknowledged; retry with jitter", true⟩

/-- What the HTTP client gets for one request.  `failed`, `unread` and
`malformed` carry the text of the client's or the decoder's error. -/
inductive Response where
  | failed (reason : String)
  | refused (answer : ErrorResponse)
  | unread (reason : String)
  | empty
  | malformed (reason : String)
  | answered (acknowledgement : IngestionAcknowledgement)
  deriving DecidableEq

/-- The response of the collector to a request it handled. -/
def Response.ofResult : ApiResult IngestionAcknowledgement → Response
  | .ok acknowledgement => .answered acknowledgement
  | .error failure => .refused (intoResponse failure)

structure HttpTelemetrySink where
  bearerToken : String := ""
  deriving DecidableEq, Repr

/-- The authorization header of a request. -/
def HttpTelemetrySink.authorization (sink : HttpTelemetrySink) : Option String :=
  if sink.bearerToken.isEmpty then none else some ("Bearer " ++ sink.bearerToken)

/-- `HttpTelemetrySink::export` of a batch, from the response to its request. -/
def exportResult (batch : List TelemetryEnvelope) :
    Response → AppResult IngestionAcknowledgement
  | .failed reason => .error (.protocol ("telemetry export request failed: " ++ reason))
  | .refused answer =>
      .error (.protocol ("telemetry export rejected: " ++ Nat.repr answer.status))
  | .unread reason => .error (.protocol ("could not read collector acknowledgement: " ++ reason))
  | .empty => .ok (IngestionAcknowledgement.wholeBatch batch)
  | .malformed reason => .error (.protocol ("invalid collector acknowledgement: " ++ reason))
  | .answered acknowledgement => do
      acknowledgement.validate batch
      return acknowledgement

theorem exportResult_answered (batch : List TelemetryEnvelope)
    (acknowledgement result : IngestionAcknowledgement)
    (exported : exportResult batch (.answered acknowledgement) = .ok result) :
    result = acknowledgement := by
  obtain ⟨_, _, returned⟩ := (bind_ok_iff _ _ _).mp exported
  exact (Except.ok.inj returned).symm

/-! ## The system -/

/-- A request the worker put on the wire. -/
structure SentRequest where
  authorization : Option String
  batch : List TelemetryEnvelope
  deriving DecidableEq

/-- The agent, the collector and the messages between them.  `answers` are
those the collector gave and the agent may still receive, each with the position
of its request; `waiting` is the request of the worker's current attempt. -/
structure System (Bytes Digest : Type) where
  agent : AgentState Bytes := {}
  sink : HttpTelemetrySink := {}
  collector : Ingestion Digest
  sent : List SentRequest := []
  answers : List (Nat × Response) := []
  waiting : Option Nat := none

/-- What the agent does without the network. -/
def isLocal : AgentEvent → Bool
  | .answer _ _ _ => false
  | _ => true

abbrev LocalEvent := { event : AgentEvent // isLocal event = true }

inductive Event (Digest : Type) where
  /-- The agent publishes, takes a batch or restarts. -/
  | acts (event : LocalEvent)
  /-- The worker sends its batch. -/
  | exports
  /-- A request that was sent reaches the collector, maybe again. -/
  | arrives (request : Nat) (environment : RequestEnvironment Digest)
  /-- Another client's request reaches the collector. -/
  | others (request : Request Digest)
  /-- The answer the worker waits for arrives. -/
  | delivers (answer : Nat) (moment : Moment) (crashAfter : Option Nat)
  /-- The attempt ends without the collector's answer. -/
  | fails (failure : AppError) (moment : Moment)
  /-- The collector restarts: its answers in flight are lost. -/
  | collectorRestarts

section Step

variable {Bytes Digest : Type} [DecidableEq Digest]
variable (codec : Codec Bytes) (service : Service Bytes Digest)

/-- The attempt goes on as long as the worker exports. -/
def System.withAgent (system : System Bytes Digest) (agent : AgentState Bytes) :
    System Bytes Digest :=
  { system with
    agent
    waiting := match agent.worker with
      | .idle => none
      | .exporting _ _ => system.waiting }

/-- The agent acts; a restart builds a new sink. -/
def System.acts (system : System Bytes Digest) (event : AgentEvent) : System Bytes Digest :=
  let acted := system.withAgent (agentStep codec system.agent event).1
  match event with
  | .restart _ config => { acted with sink := ⟨config.bearerToken⟩ }
  | _ => acted

def System.exports (system : System Bytes Digest) : System Bytes Digest :=
  match system.agent.worker, system.waiting with
  | .exporting batch _, none => { system with
      sent := system.sent ++ [⟨system.sink.authorization, batch⟩]
      waiting := some system.sent.length }
  | _, _ => system

def System.arrives (system : System Bytes Digest) (position : Nat)
    (environment : RequestEnvironment Digest) : System Bytes Digest :=
  match system.sent[position]? with
  | none => system
  | some ⟨authorization, batch⟩ =>
      let request : Request Digest := ⟨authorization, batch, environment⟩
      let result := (ingest service system.collector.db request).2
      { system with
        collector := ingestStep service system.collector request
        answers := system.answers ++ [(position, .ofResult result)] }

/-- The attempt of the worker ends with a result. -/
def System.finish (system : System Bytes Digest) (result : AppResult IngestionAcknowledgement)
    (moment : Moment) (crashAfter : Option Nat) : System Bytes Digest :=
  { system with
    agent := (agentStep codec system.agent (.answer result moment crashAfter)).1
    waiting := none }

def System.delivers (system : System Bytes Digest) (position : Nat) (moment : Moment)
    (crashAfter : Option Nat) : System Bytes Digest :=
  match system.agent.worker, system.waiting, system.answers[position]? with
  | .exporting batch _, some request, some (answered, response) =>
      if answered = request then
        system.finish codec (exportResult batch response) moment crashAfter
      else system
  | _, _, _ => system

def System.fails (system : System Bytes Digest) (failure : AppError) (moment : Moment) :
    System Bytes Digest :=
  match system.waiting with
  | some _ => system.finish codec (.error failure) moment none
  | none => system

def systemStep (system : System Bytes Digest) : Event Digest → System Bytes Digest
  | .acts event => system.acts codec event.1
  | .exports => system.exports
  | .arrives request environment => system.arrives service request environment
  | .others request => { system with collector := ingestStep service system.collector request }
  | .delivers answer moment crashAfter => system.delivers codec answer moment crashAfter
  | .fails failure moment => system.fails codec failure moment
  | .collectorRestarts => { system with answers := [] }

end Step

end SystemPilot.Delivery
