import SystemPilot.Library.Machine
import SystemPilot.Netlink.Socket
import SystemPilot.Text.Lossy

/-!
# The socket server

The listener, the accept loop and the client threads of the daemon, which share the
event channel, the counter of active clients and the counters of what was lost.  An
event of the machine is one operation on what they share; what a thread finds
outside is part of its event.
-/

set_option autoImplicit false

namespace SystemPilot.Daemon

open SystemPilot.Library
open SystemPilot.Json
open SystemPilot.Text
open SystemPilot.Netlink (ProcessNode ProcessEvent buildProcessTreeJson buildEventsJson
  requestName handleClient)

/-- The bound of the event channel. -/
def eventCapacity : Nat := 4096

def maxClients : Int := 32

/-- The size of the buffer a request is read into. -/
def requestBytes : Nat := 2048

/-! ## The server -/

/-- Where a client thread stands in `handle_client`: `taken` are the events its
response is made of. -/
inductive Client where
  | reading
  | draining (taken : List ProcessEvent)
  | answering (response : String) (taken : List ProcessEvent)
  | leaving
  | finished
  deriving DecidableEq, Repr

/-- Where `unix_socket_server` stands.  `admitting` holds a stream that passed the
check and is not counted yet; `closed` has given up and dropped the channel. -/
inductive Acceptor where
  | starting
  | waiting
  | admitting
  | closed
  deriving DecidableEq, Repr

structure Server where
  acceptor : Acceptor := .starting
  queued : List ProcessEvent := []
  droppedEvents : Nat := 0
  active : Int := 0
  threads : List Client := []
  responseWriteFailures : Nat := 0
  deriving DecidableEq, Repr

/-- What a client thread finds outside: what its one `read` returned (nothing when
it failed), the processes the iterator of the tree shows it, and whether its
response could be written. -/
structure Answers where
  received : List UInt8
  tree : List ProcessNode
  written : Bool

inductive Event where
  | record (event : ProcessEvent)
  | listen (succeeds : Bool)
  | accept
  | spawn
  | thread (index : Nat) (answers : Answers)

/-- `try_send` has room: a receiver is left and the channel is not full. -/
def Server.hasRoom (server : Server) : Bool :=
  server.acceptor ≠ .closed ∧ server.queued.length < eventCapacity

section Steps

variable (floats : FloatText)

/-- What a client does with its request. -/
def Client.request (answers : Answers) : Client :=
  if answers.received.isEmpty then .leaving
  else
    match requestName floats (fromUtf8Lossy (answers.received.take requestBytes)) with
    | some name =>
        if name = "process_tree" then .answering (buildProcessTreeJson answers.tree) []
        else if name = "events" then .draining []
        else .answering ("\x7b\"status\":\"error\",\"message\":\"unknown: " ++ name ++ "\"\x7d") []
    | none => .answering "\x7b\"status\":\"error\",\"message\":\"invalid json\"\x7d" []

def Server.set (server : Server) (index : Nat) (client : Client) : Server :=
  { server with threads := server.threads.set index client }

/-- The next operation of a client thread. -/
def Server.advance (server : Server) (index : Nat) (answers : Answers) : Client → Server
  | .reading => server.set index (Client.request floats answers)
  | .draining taken =>
      match server.queued with
      | [] => server.set index (.answering (buildEventsJson taken) taken)
      | event :: rest =>
          { server.set index (.draining (taken ++ [event])) with queued := rest }
  | .answering _ _ =>
      if answers.written then server.set index .leaving
      else
        { server.set index .leaving with
          responseWriteFailures := server.responseWriteFailures + 1 }
  | .leaving => { server.set index .finished with active := server.active - 1 }
  | .finished => server

def Server.step (server : Server) : Event → Server
  | .record event =>
      if server.hasRoom then { server with queued := server.queued ++ [event] }
      else { server with droppedEvents := server.droppedEvents + 1 }
  | .listen succeeds =>
      if server.acceptor = .starting then
        if succeeds then { server with acceptor := .waiting }
        -- the receiver goes with the server, and what it holds with the receiver
        else { server with acceptor := .closed, queued := [] }
      else server
  | .accept =>
      if server.acceptor = .waiting ∧ server.active < maxClients then
        { server with acceptor := .admitting }
      else server
  | .spawn =>
      if server.acceptor = .admitting then
        { server with
          acceptor := .waiting
          active := server.active + 1
          threads := server.threads ++ [.reading] }
      else server
  | .thread index answers =>
      match server.threads[index]? with
      | some client => server.advance floats index answers client
      | none => server

end Steps

/-! ## What became of the events -/

/-- The events a thread holds. -/
def Client.taken : Client → List ProcessEvent
  | .draining taken => taken
  | .answering _ taken => taken
  | _ => []

/-- Everything that was ever given to `try_send`, and where it went: refused by the
channel, gone with it, taken out of it in this order, and the responses that were
written or not, each with the events it was made of. -/
structure Ledger where
  recorded : List ProcessEvent := []
  dropped : List ProcessEvent := []
  discarded : List ProcessEvent := []
  taken : List ProcessEvent := []
  delivered : List (String × List ProcessEvent) := []
  failed : List (String × List ProcessEvent) := []

def Ledger.advance (ledger : Ledger) (server : Server) (answers : Answers) : Client → Ledger
  | .draining _ => { ledger with taken := ledger.taken ++ server.queued.take 1 }
  | .answering response taken =>
      if answers.written then
        { ledger with delivered := ledger.delivered ++ [(response, taken)] }
      else { ledger with failed := ledger.failed ++ [(response, taken)] }
  | _ => ledger

def Ledger.step (ledger : Ledger) (server : Server) : Event → Ledger
  | .record event =>
      { ledger with
        recorded := ledger.recorded ++ [event]
        dropped := ledger.dropped ++ if server.hasRoom then [] else [event] }
  | .listen succeeds =>
      if server.acceptor = .starting ∧ succeeds = false then
        { ledger with discarded := ledger.discarded ++ server.queued }
      else ledger
  | .thread index answers =>
      match server.threads[index]? with
      | some client => ledger.advance server answers client
      | none => ledger
  | _ => ledger

/-- The server and the ledger of its run. -/
structure Session where
  server : Server := {}
  ledger : Ledger := {}

def Session.step (floats : FloatText) (session : Session) (event : Event) : Session where
  server := session.server.step floats event
  ledger := session.ledger.step session.server event

/-- What was taken, by who holds it or was to be sent it. -/
def Session.shares (session : Session) : List (List ProcessEvent) :=
  (session.ledger.delivered ++ session.ledger.failed).map Prod.snd ++
    session.server.threads.map Client.taken

/-- A response is about all the events it was made of. -/
def Covers (response : String) (taken : List ProcessEvent) : Prop :=
  taken = [] ∨ response = buildEventsJson taken

/-- Every event is where exactly one of the lists says, in the order it was recorded
in. -/
structure Accounted (session : Session) : Prop where
  dropped : session.server.droppedEvents = session.ledger.dropped.length
  failures : session.server.responseWriteFailures = session.ledger.failed.length
  located : session.ledger.recorded.Perm (session.ledger.dropped ++ session.ledger.discarded ++
    session.ledger.taken ++ session.server.queued)
  ordered : (session.ledger.taken ++ session.ledger.discarded ++ session.server.queued).Sublist
    session.ledger.recorded
  dealt : session.shares.flatten.Perm session.ledger.taken
  inOrder : ∀ share ∈ session.shares, share.Sublist session.ledger.taken
  covered : ∀ reply ∈ session.ledger.delivered ++ session.ledger.failed, Covers reply.1 reply.2

/-- The counter counts the threads that have not finished, and leaves room for the
stream that is being admitted. -/
structure Limited (server : Server) : Prop where
  counted : server.active = server.threads.countP (· ≠ .finished)
  bounded : server.active + (if server.acceptor = .admitting then 1 else 0) ≤ maxClients
  capacity : server.queued.length ≤ eventCapacity

/-- What `Accounted` and `Limited` need to be carried over a step. -/
structure Orderly (session : Session) : Prop where
  accounted : Accounted session
  limited : Limited session.server
  answering : ∀ response taken, .answering response taken ∈ session.server.threads →
    Covers response taken
  unheard : session.server.acceptor = .starting ∨ session.server.acceptor = .closed →
    session.server.threads = []
  undiscarded : session.server.acceptor ≠ .closed → session.ledger.discarded = []

/-! ## One thread -/

section Threads

variable {threads : List Client} {index : Nat} {client : Client}

theorem set_split (found : threads[index]? = some client) (next : Client) :
    ∃ before after, threads = before ++ client :: after ∧
      threads.set index next = before ++ next :: after := by
  obtain ⟨bound, here⟩ := List.getElem?_eq_some_iff.mp found
  obtain ⟨before, after, split, -, changed⟩ := @List.exists_of_set _ index next threads bound
  exact ⟨before, after, by rw [split, here], changed⟩

/-- What the threads hold changes by what the one of them does. -/
theorem taken_set (found : threads[index]? = some client) (next : Client) :
    (((threads.set index next).map Client.taken).flatten ++ client.taken).Perm
      ((threads.map Client.taken).flatten ++ next.taken) := by
  obtain ⟨before, after, split, changed⟩ := set_split found next
  rw [changed, split, List.perm_iff_count]
  intro event
  simp only [List.map_append, List.map_cons, List.flatten_append, List.flatten_cons,
    List.count_append]
  omega

theorem countP_set (found : threads[index]? = some client) (next : Client) :
    (threads.set index next).countP (· ≠ .finished) + (if client = .finished then 0 else 1) =
      threads.countP (· ≠ .finished) + (if next = .finished then 0 else 1) := by
  obtain ⟨before, after, split, changed⟩ := set_split found next
  rw [changed, split]
  simp only [List.countP_append, List.countP_cons, ne_eq, decide_not, Bool.not_eq_true',
    decide_eq_false_iff_not, ite_not]
  omega

theorem map_taken_set (found : threads[index]? = some client) (next : Client)
    (same : next.taken = client.taken) :
    (threads.set index next).map Client.taken = threads.map Client.taken := by
  obtain ⟨before, after, split, changed⟩ := set_split found next
  rw [changed, split, List.map_append, List.map_append, List.map_cons, List.map_cons, same]

theorem client_mem (found : threads[index]? = some client) : client ∈ threads :=
  List.mem_of_getElem? found

end Threads

/-! ## What a step keeps -/

section Steps

variable {floats : FloatText} {session : Session} {index : Nat} {client : Client}

theorem Limited.set (limited : Limited session.server)
    (found : session.server.threads[index]? = some client) (working : client ≠ .finished)
    (next : Client) (stays : next ≠ .finished) : Limited (session.server.set index next) where
  counted := by
    have count := countP_set found next
    rw [if_neg working, if_neg stays] at count
    have same := limited.counted
    simp only [Server.set]
    omega
  bounded := limited.bounded
  capacity := limited.capacity

/-- A thread is there only while the server listens. -/
theorem Orderly.heard (orderly : Orderly session)
    (found : session.server.threads[index]? = some client) :
    ¬(session.server.acceptor = .starting ∨ session.server.acceptor = .closed) := by
  intro silent
  have present := client_mem found
  rw [orderly.unheard silent] at present
  cases present

/-- A thread that keeps what it holds. -/
theorem Orderly.set (orderly : Orderly session)
    (found : session.server.threads[index]? = some client) (working : client ≠ .finished)
    {next : Client} (stays : next ≠ .finished) (same : next.taken = client.taken)
    (answers : ∀ response taken, next = .answering response taken → Covers response taken) :
    Orderly { session with server := session.server.set index next } where
  accounted :=
    { orderly.accounted with
      dealt := by
        have dealt := orderly.accounted.dealt
        simp only [Session.shares, Server.set, map_taken_set found _ same] at dealt ⊢
        exact dealt
      inOrder := by
        have inOrder := orderly.accounted.inOrder
        simp only [Session.shares, Server.set, map_taken_set found _ same] at inOrder ⊢
        exact inOrder }
  limited := orderly.limited.set found working _ stays
  answering := by
    intro response taken member
    rcases List.mem_or_eq_of_mem_set member with present | rfl
    · exact orderly.answering response taken present
    · exact answers response taken rfl
  unheard silent := absurd silent (orderly.heard found)
  undiscarded := orderly.undiscarded

/-- A request alone gives a client no event. -/
theorem request_spec (answers : Answers) :
    Client.request floats answers ≠ .finished ∧ (Client.request floats answers).taken = [] ∧
      ∀ response taken, Client.request floats answers = .answering response taken →
        Covers response taken := by
  have plain (text : String) : Client.answering text [] ≠ .finished ∧
      (Client.answering text []).taken = [] ∧
        ∀ response taken, Client.answering text [] = .answering response taken →
          Covers response taken := by
    refine ⟨by simp, rfl, ?_⟩
    intro response taken same
    obtain ⟨-, rfl⟩ := Client.answering.inj same
    exact .inl rfl
  unfold Client.request
  split
  · exact ⟨by simp, rfl, by simp⟩
  · split
    · split
      · exact plain _
      · split
        · exact ⟨by simp, rfl, by simp⟩
        · exact plain _
    · exact plain _

/-- The next event of the channel goes to the thread that drains it. -/
theorem Orderly.drain (orderly : Orderly session) {taken rest : List ProcessEvent}
    {event : ProcessEvent} (found : session.server.threads[index]? = some (.draining taken))
    (queued : session.server.queued = event :: rest) :
    Orderly
      { server := { session.server.set index (.draining (taken ++ [event])) with queued := rest }
        ledger := { session.ledger with taken := session.ledger.taken ++ [event] } } := by
  have kept := orderly.undiscarded fun closed => orderly.heard found (.inr closed)
  have located := orderly.accounted.located
  have ordered := orderly.accounted.ordered
  rw [queued] at located ordered
  have moved := taken_set found (.draining (taken ++ [event]))
  refine ⟨{ orderly.accounted with located := ?_, ordered := ?_, dealt := ?_, inOrder := ?_ },
    ⟨(orderly.limited.set found (by simp) _ (by simp)).counted, orderly.limited.bounded, ?_⟩,
    ?_, ?_, orderly.undiscarded⟩
  · refine located.trans ?_
    rw [List.append_assoc _ session.ledger.taken, List.append_assoc _ _ rest, List.append_assoc _ [event]]
    exact List.Perm.refl _
  · rw [kept] at ordered ⊢
    simpa using ordered
  · have dealt := orderly.accounted.dealt
    rw [List.perm_iff_count] at dealt moved ⊢
    intro other
    have before := dealt other
    have after := moved other
    simp only [Session.shares, Server.set, Client.taken, List.flatten_append,
      List.count_append] at before after ⊢
    omega
  · intro share member
    rw [Session.shares, List.mem_append] at member
    rcases member with settled | held
    · exact (orderly.accounted.inOrder share (List.mem_append_left _ settled)).trans
        (List.sublist_append_left _ _)
    · obtain ⟨holder, present, rfl⟩ := List.mem_map.mp held
      rcases List.mem_or_eq_of_mem_set present with other | rfl
      · exact (orderly.accounted.inOrder _
          (List.mem_append_right _ (List.mem_map_of_mem other))).trans
          (List.sublist_append_left _ _)
      · exact (orderly.accounted.inOrder taken (List.mem_append_right _
          (List.mem_map_of_mem (f := Client.taken) (client_mem found)))).append (.refl [event])
  · have capacity := orderly.limited.capacity
    rw [queued, List.length_cons] at capacity
    exact Nat.le_of_succ_le capacity
  · intro response share member
    rcases List.mem_or_eq_of_mem_set member with present | same
    · exact orderly.answering response share present
    · cases same
  · exact fun silent => absurd silent (orderly.heard found)

/-- What a thread has answered with it no longer holds. -/
theorem Orderly.answered (orderly : Orderly session) {response : String}
    {taken : List ProcessEvent}
    (found : session.server.threads[index]? = some (.answering response taken)) (answers : Answers) :
    Orderly
      { server := session.server.advance floats index answers (.answering response taken)
        ledger := session.ledger.advance session.server answers (.answering response taken) } := by
  have limited := orderly.limited.set found (by simp) .leaving (by simp)
  have covers := orderly.answering response taken (client_mem found)
  have moved := taken_set found .leaving
  have dealt := orderly.accounted.dealt
  rw [List.perm_iff_count] at dealt moved
  have inOrder : ∀ share ∈ session.shares ++ [taken], share.Sublist session.ledger.taken := by
    intro share member
    rcases List.mem_append.mp member with present | same
    · exact orderly.accounted.inOrder share present
    · rw [List.mem_singleton.mp same]
      exact orderly.accounted.inOrder taken (List.mem_append_right _
        (List.mem_map_of_mem (f := Client.taken) (client_mem found)))
  have held : ∀ share ∈ (session.server.threads.set index .leaving).map Client.taken,
      share.Sublist session.ledger.taken := by
    intro share member
    obtain ⟨holder, present, rfl⟩ := List.mem_map.mp member
    rcases List.mem_or_eq_of_mem_set present with other | rfl
    · exact orderly.accounted.inOrder _ (List.mem_append_right _ (List.mem_map_of_mem other))
    · exact List.nil_sublist _
  have answering : ∀ text share, .answering text share ∈ session.server.threads.set index .leaving →
      Covers text share := by
    intro text share member
    rcases List.mem_or_eq_of_mem_set member with present | same
    · exact orderly.answering text share present
    · cases same
  have unheard : session.server.acceptor = .starting ∨ session.server.acceptor = .closed →
      session.server.threads.set index .leaving = [] :=
    fun silent => absurd silent (orderly.heard found)
  simp only [Server.advance, Ledger.advance]
  cases answers.written with
  | true =>
      rw [if_pos rfl, if_pos rfl]
      refine ⟨{ orderly.accounted with dealt := ?_, inOrder := ?_, covered := ?_ }, limited,
        answering, unheard, orderly.undiscarded⟩
      · rw [List.perm_iff_count]
        intro event
        have before := dealt event
        have after := moved event
        simp only [Session.shares, Server.set, Client.taken, List.map_append, List.map_cons,
          List.map_nil, List.flatten_append, List.flatten_cons, List.flatten_nil,
          List.count_append, List.count_nil] at before after ⊢
        omega
      · intro share member
        simp only [Session.shares, List.map_append, List.map_cons, List.map_nil,
          List.mem_append] at member inOrder
        rcases member with ((delivered | own) | failed) | present
        · exact inOrder share (.inl (.inl (.inl delivered)))
        · exact inOrder share (.inr own)
        · exact inOrder share (.inl (.inl (.inr failed)))
        · exact held share present
      · intro reply member
        simp only [List.mem_append, List.mem_singleton] at member
        rcases member with (delivered | rfl) | failed
        · exact orderly.accounted.covered reply (List.mem_append_left _ delivered)
        · exact covers
        · exact orderly.accounted.covered reply (List.mem_append_right _ failed)
  | false =>
      rw [if_neg (by simp), if_neg (by simp)]
      refine ⟨{ orderly.accounted with failures := ?_, dealt := ?_, inOrder := ?_, covered := ?_ },
        ⟨limited.counted, limited.bounded, limited.capacity⟩, answering, unheard,
        orderly.undiscarded⟩
      · rw [List.length_append, List.length_singleton, ← orderly.accounted.failures]
      · rw [List.perm_iff_count]
        intro event
        have before := dealt event
        have after := moved event
        simp only [Session.shares, Server.set, Client.taken, List.map_append, List.map_cons,
          List.map_nil, List.flatten_append, List.flatten_cons, List.flatten_nil,
          List.count_append, List.count_nil] at before after ⊢
        omega
      · intro share member
        simp only [Session.shares, List.map_append, List.map_cons, List.map_nil,
          List.mem_append] at member inOrder
        rcases member with (delivered | failed | own) | present
        · exact inOrder share (.inl (.inl (.inl delivered)))
        · exact inOrder share (.inl (.inl (.inr failed)))
        · exact inOrder share (.inr own)
        · exact held share present
      · intro reply member
        simp only [List.mem_append, List.mem_singleton] at member
        rcases member with delivered | failed | rfl
        · exact orderly.accounted.covered reply (List.mem_append_left _ delivered)
        · exact orderly.accounted.covered reply (List.mem_append_right _ failed)
        · exact covers

/-- The thread that leaves is no longer counted. -/
theorem Orderly.left (orderly : Orderly session)
    (found : session.server.threads[index]? = some .leaving) :
    Orderly { session with
      server := { session.server.set index .finished with active := session.server.active - 1 } } where
  accounted :=
    { orderly.accounted with
      dealt := by
        have dealt := orderly.accounted.dealt
        simp only [Session.shares, Server.set, map_taken_set found .finished rfl] at dealt ⊢
        exact dealt
      inOrder := by
        have inOrder := orderly.accounted.inOrder
        simp only [Session.shares, Server.set,
          map_taken_set found .finished rfl] at inOrder ⊢
        exact inOrder }
  limited :=
    { counted := by
        have count := countP_set found .finished
        rw [if_neg (by simp), if_pos rfl] at count
        have same := orderly.limited.counted
        simp only [Server.set]
        omega
      bounded := by
        have bounded := orderly.limited.bounded
        simp only [Server.set]
        omega
      capacity := orderly.limited.capacity }
  answering := by
    intro response taken member
    rcases List.mem_or_eq_of_mem_set member with present | same
    · exact orderly.answering response taken present
    · cases same
  unheard silent := absurd silent (orderly.heard found)
  undiscarded := orderly.undiscarded

theorem Orderly.thread (orderly : Orderly session) (answers : Answers)
    (found : session.server.threads[index]? = some client) :
    Orderly
      { server := session.server.advance floats index answers client
        ledger := session.ledger.advance session.server answers client } := by
  cases client with
  | reading =>
      obtain ⟨working, empty, covers⟩ := @request_spec floats answers
      exact orderly.set found (by simp) working empty covers
  | draining taken =>
      cases queued : session.server.queued with
      | nil =>
          simp only [Server.advance, Ledger.advance, queued, List.take_nil, List.append_nil]
          refine orderly.set found (by simp) (by simp) rfl ?_
          intro response share same
          obtain ⟨rfl, rfl⟩ := Client.answering.inj same
          exact .inr rfl
      | cons event rest =>
          simp only [Server.advance, Ledger.advance, queued, List.take_succ_cons, List.take_zero]
          exact orderly.drain found queued
  | answering response taken => exact orderly.answered found answers
  | leaving => exact orderly.left found
  | finished => exact orderly

theorem Orderly.record (orderly : Orderly session) (event : ProcessEvent) :
    Orderly (session.step floats (.record event)) := by
  have located := orderly.accounted.located
  have ordered := orderly.accounted.ordered
  simp only [Session.step, Server.step, Ledger.step]
  by_cases room : session.server.hasRoom
  · rw [if_pos room, if_pos room, List.append_nil]
    have space : session.server.queued.length < eventCapacity := by
      rw [Server.hasRoom, decide_eq_true_iff] at room
      exact room.2
    refine ⟨{ orderly.accounted with located := ?_, ordered := ?_ },
      ⟨orderly.limited.counted, orderly.limited.bounded, ?_⟩, orderly.answering, orderly.unheard,
      orderly.undiscarded⟩
    · rw [← List.append_assoc]
      exact located.append_right [event]
    · rw [← List.append_assoc]
      exact ordered.append (.refl [event])
    · rw [List.length_append, List.length_singleton]
      exact space
  · rw [if_neg room, if_neg room]
    refine ⟨{ orderly.accounted with dropped := ?_, located := ?_, ordered := ?_ },
      ⟨orderly.limited.counted, orderly.limited.bounded, orderly.limited.capacity⟩,
      orderly.answering, orderly.unheard, orderly.undiscarded⟩
    · rw [List.length_append, List.length_singleton, ← orderly.accounted.dropped]
    · rw [List.perm_iff_count] at located ⊢
      intro other
      have same := located other
      simp only [List.count_append] at same ⊢
      omega
    · exact ordered.trans (List.sublist_append_left _ _)

/-- A server that gives up drops the channel with what is in it. -/
theorem Orderly.listen (orderly : Orderly session) (succeeds : Bool) :
    Orderly (session.step floats (.listen succeeds)) := by
  simp only [Session.step, Server.step, Ledger.step]
  by_cases starting : session.server.acceptor = .starting
  · have unheard := orderly.unheard (.inl starting)
    have bounded := orderly.limited.bounded
    rw [if_neg (by simp [starting])] at bounded
    cases succeeds with
    | true =>
        rw [if_pos starting, if_pos rfl, if_neg (by simp)]
        refine ⟨{ orderly.accounted with }, ⟨orderly.limited.counted, ?_, orderly.limited.capacity⟩,
          orderly.answering, fun _ => unheard, fun _ => orderly.undiscarded (by simp [starting])⟩
        rw [if_neg (by simp)]
        exact bounded
    | false =>
        rw [if_pos starting, if_neg (by simp), if_pos ⟨starting, rfl⟩]
        have located := orderly.accounted.located
        have ordered := orderly.accounted.ordered
        refine ⟨{ orderly.accounted with located := ?_, ordered := ?_ },
          ⟨orderly.limited.counted, ?_, Nat.zero_le _⟩, orderly.answering, fun _ => unheard,
          fun opened => absurd rfl opened⟩
        · rw [List.perm_iff_count] at located ⊢
          intro other
          have same := located other
          simp only [List.count_append, List.count_nil] at same ⊢
          omega
        · rw [List.append_nil, ← List.append_assoc]
          exact ordered
        · rw [if_neg (by simp)]
          exact bounded
  · rw [if_neg starting, if_neg fun both => starting both.1]
    exact orderly

theorem Orderly.accept (orderly : Orderly session) :
    Orderly (session.step floats .accept) := by
  simp only [Session.step, Server.step, Ledger.step]
  split
  · rename_i free
    obtain ⟨waiting, below⟩ := free
    refine ⟨{ orderly.accounted with }, ⟨orderly.limited.counted, ?_, orderly.limited.capacity⟩,
      orderly.answering, by simp, fun _ => orderly.undiscarded (by simp [waiting])⟩
    rw [if_pos rfl]
    exact below
  · exact orderly

theorem Orderly.spawn (orderly : Orderly session) :
    Orderly (session.step floats .spawn) := by
  simp only [Session.step, Server.step, Ledger.step]
  split
  · rename_i admitting
    have bounded := orderly.limited.bounded
    rw [if_pos admitting] at bounded
    have held : (session.server.threads ++ [Client.reading]).map Client.taken =
        session.server.threads.map Client.taken ++ [[]] := by
      rw [List.map_append]
      rfl
    refine ⟨{ orderly.accounted with dealt := ?_, inOrder := ?_ }, ⟨?_, ?_, orderly.limited.capacity⟩,
      ?_, by simp, fun _ => orderly.undiscarded (by simp [admitting])⟩
    · have dealt := orderly.accounted.dealt
      simp only [Session.shares, held, ← List.append_assoc] at dealt ⊢
      rw [List.flatten_append]
      simpa using dealt
    · intro share member
      simp only [Session.shares, held, ← List.append_assoc] at member
      rcases List.mem_append.mp member with present | fresh
      · exact orderly.accounted.inOrder share present
      · rw [List.mem_singleton.mp fresh]
        exact List.nil_sublist _
    · have counted := orderly.limited.counted
      rw [List.countP_append]
      simp [counted]
    · simpa using bounded
    · intro response taken member
      rcases List.mem_append.mp member with present | fresh
      · exact orderly.answering response taken present
      · cases List.mem_singleton.mp fresh
  · exact orderly

theorem Orderly.step (orderly : Orderly session) (event : Event) :
    Orderly (session.step floats event) := by
  cases event with
  | record event => exact orderly.record event
  | listen succeeds => exact orderly.listen succeeds
  | accept => exact orderly.accept
  | spawn => exact orderly.spawn
  | thread index answers =>
      simp only [Session.step, Server.step, Ledger.step]
      cases found : session.server.threads[index]? with
      | none => exact orderly
      | some client => exact orderly.thread answers found

theorem Orderly.initial : Orderly {} where
  accounted := by
    constructor <;> simp [Session.shares]
  limited := by
    constructor <;> simp [maxClients]
  answering := by simp
  unheard := by simp
  undiscarded := by simp

theorem orderly_run (events : List Event) :
    Orderly (Machine.run (Session.step floats) {} events) :=
  Machine.run_invariant_always _ Orderly (fun _ event orderly => orderly.step event) _ events
    Orderly.initial

end Steps

/-! ## A client alone -/

section Alone

variable {floats : FloatText} {server : Server} {index : Nat}

theorem set_threads (bound : index < server.threads.length) (client : Client) :
    (server.set index client).threads[index]? = some client :=
  List.getElem?_set_self bound

theorem step_thread {client : Client} (found : server.threads[index]? = some client)
    (answers : Answers) :
    server.step floats (.thread index answers) = server.advance floats index answers client := by
  simp only [Server.step, found]

/-- A client that drains the channel with nobody in between takes all of it. -/
theorem drains (answers : Answers) (queued taken : List ProcessEvent)
    (found : server.threads[index]? = some (.draining taken)) (holds : server.queued = queued) :
    Machine.run (Server.step floats) server
        (List.replicate (queued.length + 1) (.thread index answers)) =
      { server.set index (.answering (buildEventsJson (taken ++ queued)) (taken ++ queued)) with
        queued := [] } := by
  have bound : index < server.threads.length := (List.getElem?_eq_some_iff.mp found).1
  induction queued generalizing server taken with
  | nil =>
      rw [List.length_nil, List.replicate_succ, List.replicate_zero, Machine.run_cons,
        Machine.run_nil, step_thread found, List.append_nil]
      simp only [Server.advance, holds]
      rw [← holds]
      rfl
  | cons event rest inductionHypothesis =>
      rw [List.length_cons, List.replicate_succ, Machine.run_cons, step_thread found]
      simp only [Server.advance, holds]
      have later := @inductionHypothesis
        { server.set index (.draining (taken ++ [event])) with queued := rest } (taken ++ [event])
        (set_threads bound _) rfl (by simpa [Server.set] using bound)
      refine later.trans ?_
      simp [Server.set]

/-- Alone, a client answers as `handle_client` does in one piece. -/
theorem alone_answers (answers : Answers) (found : server.threads[index]? = some .reading)
    (received : answers.received ≠ []) :
    ∃ count taken,
      Machine.run (Server.step floats) server (List.replicate count (.thread index answers)) =
        { server.set index (.answering
            (handleClient floats answers.tree server.queued
              (fromUtf8Lossy (answers.received.take requestBytes))).1 taken) with
          queued := (handleClient floats answers.tree server.queued
            (fromUtf8Lossy (answers.received.take requestBytes))).2 } := by
  have bound : index < server.threads.length := (List.getElem?_eq_some_iff.mp found).1
  have first : server.step floats (.thread index answers) =
      server.set index (Client.request floats answers) := step_thread found answers
  have nonempty : answers.received.isEmpty = false := by simpa using received
  rw [Client.request, nonempty, if_neg (by simp)] at first
  unfold handleClient
  cases named : requestName floats (fromUtf8Lossy (answers.received.take requestBytes)) with
  | none =>
      rw [named] at first
      exact ⟨1, [], first⟩
  | some name =>
      rw [named] at first
      dsimp only at first ⊢
      by_cases tree : name = "process_tree"
      · rw [if_pos tree] at first ⊢
        exact ⟨1, [], first⟩
      · rw [if_neg tree] at first ⊢
        by_cases wanted : name = "events"
        · rw [if_pos wanted] at first ⊢
          refine ⟨server.queued.length + 2, server.queued, ?_⟩
          rw [List.replicate_succ, Machine.run_cons, first,
            drains answers server.queued [] (set_threads bound _) rfl]
          simp [Server.set]
        · rw [if_neg wanted] at first ⊢
          exact ⟨1, [], first⟩

end Alone

end SystemPilot.Daemon
