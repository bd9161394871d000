import CpuMonitor.Network.QueueCalls
import CpuMonitor.Server.Pipeline
import CpuMonitor.Server.Service

/-!
# A request alone: the threads compute the sequential service

`serve` composes the functions of one request; the step relation of `Pipeline` runs the three loops
side by side. Here the two are connected: when nothing else moves, the steps of one request, taken
in a row over the ring buffers, do what `serve` does.

* `exec_receive`, `exec_handle`, `exec_send` — each loop's way of one message, from any state in
  which that loop is at its start and the queue it writes to has room;
* `exec_serve` — the three in a row are `serve`, and leave the connection ready for the next
  request;
* **Noninterference** `noninterfering_iff`: the sockets that a worker can have are those of the
  states its threads reach (`WorkerSocket`), replies to earlier requests included. Among these, and
  among all sockets whatever their buffers hold, a datagram does not interfere exactly if it holds
  all the bytes its header declares.
-/

namespace CpuMonitor.Server

open CpuMonitor.Lib CpuMonitor.Network

variable {σ ε : Type} {handler : Handler ε σ}

/-- An enqueue on a queue with room appends the message and deletes nothing.
Source: `net_connection.c`, the two thread functions; `server_worker.c`, `server_worker_update`
Kind: L -/
theorem messageQueueEnqueue_of_room {α : Type} {q : MessageQueue α} {xs : List α}
    (h : q.Represents xs) (hroom : xs.length + 1 < q.capacity) (m : α) :
    ∃ q', messageQueueEnqueue .allOk q m = some (.success, q', []) ∧
      q'.capacity = q.capacity ∧ q'.Represents (xs ++ [m]) := by
  have hnotFull : xs.length ≠ q.capacity - 1 := by omega
  obtain ⟨q', henqueue, hcap, hrep⟩ := h.enqueue (by omega) EnqueueCalls.allOk_lock m
    (fun hfull => absurd hfull hnotFull)
  rw [fifoEnqueue, if_neg hnotFull] at henqueue hrep
  exact ⟨q', henqueue, hcap, hrep⟩

/-- A dequeue on a queue that is not empty returns the oldest message.
Source: `net_connection.c`, the two thread functions; `server_worker.c`, `server_worker_update`
Kind: L -/
theorem messageQueueDequeueNonblocking_of_cons {α : Type} {q : MessageQueue α} {x : α}
    {xs : List α} (h : q.Represents (x :: xs)) :
    ∃ q', messageQueueDequeueNonblocking .allOk q = some (some x, q') ∧
      q'.capacity = q.capacity ∧ q'.Represents xs := by
  obtain ⟨r, q', hdequeue, hcap, hcases⟩ := h.dequeueNonblocking .allOk
  rcases hcases with ⟨-, -, hnone⟩ | ⟨y, rest, heq, hrep, -, rfl⟩
  · simp at hnone
  · cases heq
    exact ⟨q', hdequeue, hcap, hrep⟩

section ways

variable {s : Conn (MessageQueue Tagged) σ}

/-- **The receive thread's way** of a datagram.
Source: `net_connection.c`, the two thread functions; `server_worker.c`, `server_worker_update`
Kind: P -/
theorem exec_receive {xs : List Tagged} (hrecv : s.recv = .idle) (hq : s.incoming.Represents xs)
    (hroom : xs.length + 1 < s.incoming.capacity) (p : Packet) (fresh : FreshMemory) :
    ∃ q, q.capacity = s.incoming.capacity ∧
      q.Represents (xs ++ [⟨s.receipts.length, requestOf s.socket.incomingBuffer p fresh⟩]) ∧
      exec (step ringOps handler) (fun _ _ => True) s (receiveLabels p fresh .allOk) =
        some { s with
          socket := s.socket.recvfrom p
          incoming := q
          receipts := s.receipts ++ [⟨p, (s.socket.recvfrom p).incomingBuffer⟩] } := by
  obtain ⟨q, henqueue, hcap, hrep⟩ := messageQueueEnqueue_of_room hq hroom
    ⟨s.receipts.length, requestOf s.socket.incomingBuffer p fresh⟩
  obtain ⟨new, hnew, hblock⟩ := messageCreate_receive fresh
  have hdata : receiveData (s.socket.recvfrom p) (receiveOwner (s.socket.recvfrom p)
      { new with header := wireHeader (s.socket.recvfrom p).incomingBuffer }) =
        some (requestOf s.socket.incomingBuffer p fresh) := by
    have hreceive := receiveMessage_recvfrom s.socket p hblock
    rwa [receiveMessage, receiveHeader_eq, Option.bind_eq_bind, Option.bind_some] at hreceive
  refine ⟨q, hcap, hrep, ?_⟩
  simp [exec, receiveLabels, step, hrecv, udpSocketReceiveMessage, hnew, receiveHeader_eq, hdata,
    ringOps, henqueue, deletions]

/-- **The worker's way** of a message.
Source: `net_connection.c`, the two thread functions; `server_worker.c`, `server_worker_update`
Kind: P -/
theorem exec_handle {t : Tagged} {xs ys : List Tagged} {env : ε} {m : Message} {store : σ}
    (hwork : s.work = .out) (hin : s.incoming.Represents (t :: xs))
    (hout : s.outgoing.Represents ys) (hroom : ys.length + 1 < s.outgoing.capacity)
    (call : handler env s.store t.body = some (m, store)) :
    ∃ q₁ q₂, q₁.capacity = s.incoming.capacity ∧ q₁.Represents xs ∧
      q₂.capacity = s.outgoing.capacity ∧ q₂.Represents (ys ++ [⟨t.id, m⟩]) ∧
      exec (step ringOps handler) (fun _ _ => True) s (handleLabels env .allOk) =
        some { s with
          incoming := q₁
          outgoing := q₂
          store := store
          handledLog := s.handledLog ++ [⟨t.id, t.body, m⟩] } := by
  obtain ⟨q₁, hdequeue, hcap₁, hrep₁⟩ := messageQueueDequeueNonblocking_of_cons hin
  obtain ⟨q₂, henqueue, hcap₂, hrep₂⟩ := messageQueueEnqueue_of_room hout hroom ⟨t.id, m⟩
  refine ⟨q₁, q₂, hcap₁, hrep₁, hcap₂, hrep₂, ?_⟩
  simp [exec, handleLabels, step, hwork, ringOps, hdequeue, call, henqueue, deletions]

/-- **The send thread's way** of a message, to `sendto` or to its rejection.
Source: `net_connection.c`, the two thread functions; `server_worker.c`, `server_worker_update`
Kind: P -/
theorem exec_send {t : Tagged} {ys : List Tagged} {socket : UdpSocket}
    {sent : Option (List UInt8 × SockaddrIn)} (hsend : s.send = .idle)
    (hout : s.outgoing.Represents (t :: ys))
    (hs : sendMessage s.socket t.body = some (socket, sent)) :
    ∃ q deleted, q.capacity = s.outgoing.capacity ∧ q.Represents ys ∧
      exec (step ringOps handler) (fun _ _ => True) s (sendLabels sent.isSome) =
        some { s with
          socket := socket
          outgoing := q
          sent := s.sent ++ (sent.map fun x => ⟨t, x.1, x.2⟩).toList
          deleted := deleted } := by
  obtain ⟨q, hdequeue, hcap, hrep⟩ := messageQueueDequeueNonblocking_of_cons hout
  unfold sendMessage at hs
  obtain ⟨s₁, hheader, hs⟩ := Option.bind_eq_some_iff.mp hs
  obtain ⟨⟨status, s₂⟩, hdata, hs⟩ := Option.bind_eq_some_iff.mp hs
  by_cases hstatus : status = .success
  · simp only [hstatus, ne_eq, not_true_eq_false, if_false] at hs
    obtain ⟨⟨bytes, dest⟩, hsendto, hs⟩ := Option.bind_eq_some_iff.mp hs
    cases hs
    refine ⟨q, s.deleted ++ [(.afterSend, t)], hcap, hrep, ?_⟩
    simp [exec, sendLabels, addressLabels, step, hsend, ringOps, hdequeue, hheader, hdata, hstatus,
      hsendto]
  · simp only [hstatus, ne_eq, not_false_eq_true, if_true, Option.some.injEq,
      Prod.mk.injEq] at hs
    obtain ⟨rfl, rfl⟩ := hs
    refine ⟨q, s.deleted ++ [(.rejected, t)], hcap, hrep, ?_⟩
    simp [exec, sendLabels, step, hsend, ringOps, hdequeue, hheader, hdata, hstatus]

end ways

/-! ## One request -/

/-- All loops are at their start and both queues are empty, with room for a message.
Source: none: infrastructure
Kind: D -/
structure Conn.Quiescent (s : Conn (MessageQueue Tagged) σ) : Prop where
  recv : s.recv = .idle
  work : s.work = .out
  send : s.send = .idle
  incoming : s.incoming.Represents []
  outgoing : s.outgoing.Represents []
  incoming_room : 2 ≤ s.incoming.capacity
  outgoing_room : 2 ≤ s.outgoing.capacity

/-- **The threads compute the sequential service.** From a quiescent connection the steps of one
request, taken in a row, have the outcome of `serve`: the worker function is applied to its request,
the journal is its journal, and what is handed to `sendto` is what it sends. The connection is
quiescent again.
Source: `net_connection.c`, the two thread functions; `server_worker.c`, `server_worker_update`
Kind: P -/
theorem exec_serve {s : Conn (MessageQueue Tagged) Journal} (h : s.Quiescent) {env : HandlerEnv}
    {p : Packet} {fresh : FreshMemory} {r : Served}
    (hserve : serve env s.store s.socket p fresh = some r) :
    ∃ s', exec (step ringOps workerOnMessage) (fun _ _ => True) s
        (receiveLabels p fresh .allOk ++ handleLabels env .allOk ++ sendLabels r.sent.isSome) =
          some s' ∧
      s'.Quiescent ∧ s'.store = r.journal ∧
      s'.socket.incomingBuffer = (s.socket.recvfrom p).incomingBuffer ∧
      s'.handledLog = s.handledLog ++ [⟨s.receipts.length, r.request, r.reply⟩] ∧
      s'.sent = s.sent ++
        (r.sent.map fun x => ⟨⟨s.receipts.length, r.reply⟩, x.1, x.2⟩).toList := by
  obtain ⟨new, hnew, hblock⟩ := messageCreate_receive fresh
  have hreceive := receiveMessage_recvfrom s.socket p hblock
  simp only [serve, udpSocketReceiveMessage, hnew, hreceive, Option.bind_eq_bind,
    Option.bind_some] at hserve
  obtain ⟨⟨reply, j⟩, hworker, hserve⟩ := Option.bind_eq_some_iff.mp hserve
  obtain ⟨⟨socket, sent⟩, hsend, hserve⟩ := Option.bind_eq_some_iff.mp hserve
  cases hserve
  -- the three ways, each from the state the one before leaves
  obtain ⟨q₁, hcap₁, hrep₁, hexec₁⟩ := @exec_receive _ _ workerOnMessage s [] h.recv h.incoming
    h.incoming_room p fresh
  obtain ⟨q₂, q₃, hcap₂, hrep₂, hcap₃, hrep₃, hexec₂⟩ := exec_handle
    (s := { s with
      socket := s.socket.recvfrom p
      incoming := q₁
      receipts := s.receipts ++ [⟨p, (s.socket.recvfrom p).incomingBuffer⟩] })
    h.work hrep₁ h.outgoing h.outgoing_room hworker
  obtain ⟨q₄, deleted, hcap₄, hrep₄, hexec₃⟩ := @exec_send _ _ workerOnMessage
    { s with
      socket := s.socket.recvfrom p
      incoming := q₂
      outgoing := q₃
      store := j
      receipts := s.receipts ++ [⟨p, (s.socket.recvfrom p).incomingBuffer⟩]
      handledLog := s.handledLog ++
        [⟨s.receipts.length, requestOf s.socket.incomingBuffer p fresh, reply⟩] }
    ⟨s.receipts.length, reply⟩ [] socket sent h.send hrep₃ hsend
  have hexec := (exec_append ((exec_append hexec₁).trans hexec₂)).trans hexec₃
  refine ⟨_, hexec, ⟨h.recv, h.work, h.send, hrep₂, hrep₄, ?_, ?_⟩, rfl,
    incomingBuffer_of_sendMessage hsend, rfl, rfl⟩
  · exact (hcap₂.trans hcap₁).symm ▸ h.incoming_room
  · exact (hcap₄.trans hcap₃).symm ▸ h.outgoing_room

/-- A new connection is quiescent.
Source: `net_connection.c`, the two thread functions; `server_worker.c`, `server_worker_update`
Kind: L -/
theorem Conn.Quiescent.init {calls₁ calls₂ : CreateCalls} {c₁ c₂ : ℤ}
    {q₁ q₂ : MessageQueue Tagged} (hc₁ : 2 ≤ c₁ ∧ c₁ ≤ intMax) (hc₂ : 2 ≤ c₂ ∧ c₂ ≤ intMax)
    (hq₁ : messageQueueCreate calls₁ c₁ = some q₁) (hq₂ : messageQueueCreate calls₂ c₂ = some q₂)
    (socket : UdpSocket) (store : σ) : (Conn.init socket q₁ q₂ store).Quiescent := by
  obtain ⟨hcap₁, hrep₁⟩ := represents_of_messageQueueCreate hq₁ hc₁.2
  obtain ⟨hcap₂, hrep₂⟩ := represents_of_messageQueueCreate hq₂ hc₂.2
  exact ⟨rfl, rfl, rfl, hrep₁, hrep₂, show 2 ≤ q₁.capacity by omega,
    show 2 ≤ q₂.capacity by omega⟩

/-! ## Noninterference between clients -/

/-- The sockets that a worker can have: those of the states that its three loops reach from a new
connection, with any datagrams, any replies and any interleaving.
Source: `net_connection.c`, the two thread functions; `server_worker.c`, `server_worker_update`
Kind: D -/
def WorkerSocket (socket : UdpSocket) : Prop :=
  ∃ (calls₁ calls₂ : CreateCalls) (c₁ c₂ : ℤ) (q₁ q₂ : MessageQueue Tagged) (addr : SockaddrIn)
    (journal : Journal) (ls : List (Label HandlerEnv)) (s : Conn (MessageQueue Tagged) Journal),
    messageQueueCreate calls₁ c₁ = some q₁ ∧ messageQueueCreate calls₂ c₂ = some q₂ ∧
    Run (step ringOps workerOnMessage) (fun _ _ => True)
      (Conn.init (udpSocketCreate addr) q₁ q₂ journal) ls s ∧ s.socket = socket

/-- A worker's first datagram can be one of 2000 equal bytes.
Source: `net_connection.c`, the two thread functions; `server_worker.c`, `server_worker_update`
Kind: L -/
theorem workerSocket_filled (b : UInt8) : WorkerSocket (filled b) := by
  obtain ⟨j, -⟩ := exists_wellFormed
  have hrun : Run (step ringOps workerOnMessage) (fun _ _ => True)
      (Conn.init (udpSocketCreate ⟨0, 0, 0, 0⟩) (createdQueue Tagged 128) (createdQueue Tagged 128)
        j) [.recvfrom ⟨List.replicate udpSocketBufferSize b, ⟨0, 0, 0, 0⟩⟩] _ :=
    Run.nil.snoc trivial (step_of_moved (.recvfrom rfl))
  exact ⟨.allOk, .allOk, 128, 128, _, _, ⟨0, 0, 0, 0⟩, j, _, _,
    messageQueueCreate_allOk (by decide), messageQueueCreate_allOk (by decide), hrun, rfl⟩

/-- **Which datagrams interfere.** The request and the reply are the same whatever the two buffers
of the socket hold, exactly for the datagrams that hold a whole header and, unless that declares
more than a datagram can hold, all the data it declares. It makes no difference whether all contents
of the buffers are considered or only those that a worker's earlier datagrams and replies can leave.
Source: `net_connection.c`, `net_connection_read_header`, `net_connection_read_data`: neither looks
at the number of bytes received
Kind: P -/
theorem noninterfering_iff (p : Packet) :
    (Noninterfering (fun _ => True) p ↔ SelfContained p.bytes) ∧
      (Noninterfering WorkerSocket p ↔ SelfContained p.bytes) :=
  ⟨noninterfering_iff_of_filled fun _ => trivial,
    noninterfering_iff_of_filled workerSocket_filled⟩

/-- **A client is answered about another client's process.** A header that declares a pid of four
bytes, without the four bytes: the pid is read from an earlier datagram.
Source: `net_connection.c`, the two thread functions; `server_worker.c`, `server_worker_update`
Kind: C -/
theorem stale_pid_interferes :
    ¬ Noninterfering WorkerSocket
      ⟨MessageHeader.bytes ⟨MessageType.pid.code, 4, ⟨0, 0, 0, 0⟩, 4⟩, ⟨2, 80, 1, 0⟩⟩ := by
  refine not_noninterfering_of_missing workerSocket_filled ?_ ?_ ?_ <;> decide +kernel

end CpuMonitor.Server
