import CpuMonitor.Lib.Run
import CpuMonitor.Network.MessageQueue
import CpuMonitor.Network.NetConnection

/-!
# A worker's connection: three loops, two queues and one socket

The receive thread and the send thread of a connection (`net_connection.c`) and the loop of
`server_worker_update` (`server_worker.c`) run side by side. Requests flow from the socket through
the incoming queue, the worker function and the outgoing queue back to the socket; the field
`socket->incoming_addr` is written by both threads.

* **The state** `Conn Q σ`: the socket, the two queues (of any type `Q`), where each loop is and
  which message it holds, the state `σ` of the worker function, and the history: what was received,
  handled, sent and passed to `message_delete`.
* **The steps** `step ops handler`, at the granularity of the source's accesses to what is shared. A
  label says who moves and what the system answers.
* **Two levels**: `ringOps` runs it with the ring buffers of `message_queue.c`, `fifoOps` with
  abstract queues; every run of the first is a run of the second (`run_refines`).
* `Moved` says once what a step of the abstract level can do (`moved_of_step`).
-/

namespace CpuMonitor.Server

open CpuMonitor.Lib CpuMonitor.Network

/-! ## The state -/

/-- A message under way, with the number of the datagram it was made for: the identity of the
message object.
Source: none: infrastructure
Kind: D -/
structure Tagged where
  id : ℕ
  body : Message
  deriving DecidableEq

/-- Where the receive thread is.
Source: `net_connection.c`, `net_connection_receive_thread_func`
Kind: D -/
inductive RecvPc
  /-- Before `udp_socket_receive_message`. -/
  | idle
  /-- After a successful receipt, before `message_create`. -/
  | received (id : ℕ)
  /-- The header is read. -/
  | header (message : Tagged)
  /-- `owner_addr` is set. -/
  | owned (message : Tagged)
  /-- The data is read, the message is about to be enqueued. -/
  | built (message : Tagged)
  deriving DecidableEq

/-- Where the worker is; `left` is `max_messages - message_count`, after the message in hand.
Source: `server_worker.c`, `server_worker_update`
Kind: D -/
inductive WorkPc
  /-- Between two calls of `server_worker_update`. -/
  | out
  /-- At the head of the loop. -/
  | loop (left : ℕ)
  /-- A message is dequeued. -/
  | got (left : ℕ) (message : Tagged)
  /-- The worker function has returned. -/
  | handled (left : ℕ) (message : Tagged)
  deriving DecidableEq

/-- Where the send thread is.
Source: `net_connection.c`, `net_connection_send_thread_func`
Kind: D -/
inductive SendPc
  /-- Before the dequeue. -/
  | idle
  /-- A message is dequeued. -/
  | taken (message : Tagged)
  /-- Header and data are written to the buffer. -/
  | encoded (message : Tagged)
  /-- `incoming_addr` is set. -/
  | addressed (message : Tagged)
  deriving DecidableEq

/-- A successful receipt: the datagram, and the receive buffer after it.
Source: `socket_udp.c`, `udp_socket_receive_message`
Kind: D -/
structure Receipt where
  packet : Packet
  buffer : SocketBuffer

/-- A call of the worker function: the message before and after it.
Source: `server_worker.c`, `server_worker_update`
Kind: D -/
structure Handled where
  id : ℕ
  before : Message
  after : Message

/-- A call of `udp_socket_send`: the message, and what was handed to `sendto`.
Source: `socket_udp.c`, `udp_socket_send`
Kind: D -/
structure Sent where
  message : Tagged
  bytes : List UInt8
  dest : SockaddrIn

/-- The places that call `message_delete`.
Source: `message.c`, `message_delete` (its callers)
Kind: D -/
inductive DeleteSite
  /-- The clearing loop of `message_queue_enqueue`, on the incoming queue. -/
  | overflowIncoming
  /-- The same on the outgoing queue. -/
  | overflowOutgoing
  /-- `net_connection_add_to_queue`, after a failed enqueue. -/
  | addToQueue
  /-- The receive thread, after a failed `net_connection_add_to_queue`. -/
  | receiveThread
  /-- The send thread, after a failed `net_connection_write_data`. -/
  | rejected
  /-- The send thread, after `udp_socket_send`. -/
  | afterSend
  deriving DecidableEq

/-- A worker's connection, with queues of type `Q` and a worker function with state `σ`. The last
five fields are the history of the run.
Source: `net_connection.c`, the two thread functions; `server_worker.c`, `server_worker_update`
Kind: D -/
structure Conn (Q σ : Type) where
  socket : UdpSocket
  incoming : Q
  outgoing : Q
  recv : RecvPc
  work : WorkPc
  send : SendPc
  store : σ
  receipts : List Receipt
  /-- The datagrams for which `message_create` returned `NULL`. -/
  unallocated : List ℕ
  handledLog : List Handled
  sent : List Sent
  deleted : List (DeleteSite × Tagged)

/-- A connection whose threads have just been started.
Source: `net_connection.c`, `net_connection_create`
Kind: D -/
def Conn.init {Q σ : Type} (socket : UdpSocket) (incoming outgoing : Q) (store : σ) : Conn Q σ :=
  ⟨socket, incoming, outgoing, .idle, .out, .idle, store, [], [], [], [], []⟩

/-! ## The steps -/

/-- Who moves, and what the system answers; `ε` is what the worker function gets from it.
Source: `net_connection.c`, the two thread functions; `server_worker.c`, `server_worker_update`
Kind: D -/
inductive Label (ε : Type)
  /-- `recvfrom` delivers a datagram. -/
  | recvfrom (packet : Packet)
  /-- `recvfrom` fails or times out. -/
  | recvfromFailed
  /-- `message_create` and `net_connection_read_header`. -/
  | createHeader (calls : MessageCreateCalls) (fresh : FreshMemory)
  /-- `owner_addr = incoming_addr`. -/
  | readOwner
  /-- `net_connection_read_data`. -/
  | readData
  /-- `net_connection_add_to_queue` of the receive thread. -/
  | enqueueIncoming (calls : EnqueueCalls)
  /-- `server_worker_update` is called. -/
  | updateCall (maxMessages : ℕ)
  /-- `net_connection_receive_nonblocking`. -/
  | workDequeue (calls : DequeueCalls)
  /-- `server_worker_on_message`. -/
  | handle (env : ε)
  /-- `server_worker_send_message`. -/
  | enqueueOutgoing (calls : EnqueueCalls)
  /-- The loop ends: `max_messages` are handled, or `is_running` is read as zero. -/
  | updateReturn (isRunning : Bool)
  /-- The send thread's dequeue. -/
  | sendDequeue (calls : DequeueCalls)
  /-- `net_connection_write_header` and `net_connection_write_data`. -/
  | encode
  /-- `incoming_addr = owner_addr`. -/
  | address
  /-- `sendto`. -/
  | sendto

/-- The two operations of a queue the connection uses.
Source: `message_queue.c`, `message_queue_enqueue`, `message_queue_dequeue_nonblocking`
Kind: D -/
structure QueueOps (Q : Type) where
  enqueue : EnqueueCalls → Q → Tagged → Option (MessageQueueStatus × Q × List Tagged)
  dequeueNonblocking : DequeueCalls → Q → Option (Option Tagged × Q)

/-- A worker function: what it makes of a message and of its own state.
Source: `server_worker.c`, `server_worker_update`
Kind: D -/
abbrev Handler (ε σ : Type) : Type := ε → σ → Message → Option (Message × σ)

/-- The deletions of an enqueue: those of the clearing loop, and those of the callers (`sites`) if
it reports a failure.
Source: `net_connection.c`, `net_connection_add_to_queue`
Kind: D -/
def deletions (overflow : DeleteSite) (sites : List DeleteSite) (status : MessageQueueStatus)
    (dropped : List Tagged) (t : Tagged) : List (DeleteSite × Tagged) :=
  dropped.map (fun m => (overflow, m)) ++
    if status ≠ .success then sites.map (fun site => (site, t)) else []

section step

variable {Q σ ε : Type} (ops : QueueOps Q) (handler : Handler ε σ)

/-- One step of one of the three loops; `none` if that loop is elsewhere, or if the step has no
defined outcome.
Source: `net_connection.c`, the two thread functions; `server_worker.c`, `server_worker_update`
Kind: D
Fidelity: exact (non-null pointers; a failed `sendto` is only logged) -/
def step (s : Conn Q σ) : Label ε → Option (Conn Q σ)
  | .recvfrom packet =>
      match s.recv with
      | .idle =>
          let socket := (udpSocketReceiveMessage s.socket (some packet)).2
          some { s with
            socket := socket
            recv := .received s.receipts.length
            receipts := s.receipts ++ [⟨packet, socket.incomingBuffer⟩] }
      | _ => none
  | .recvfromFailed =>
      match s.recv with
      | .idle => some { s with socket := (udpSocketReceiveMessage s.socket none).2 }
      | _ => none
  | .createHeader calls fresh =>
      match s.recv with
      | .received id =>
          match messageCreate calls fresh .none receiveCapacity with
          | none => some { s with recv := .idle, unallocated := s.unallocated ++ [id] }
          | some new => do
              let m ← receiveHeader s.socket new
              some { s with recv := .header ⟨id, m⟩ }
      | _ => none
  | .readOwner =>
      match s.recv with
      | .header t => some { s with recv := .owned { t with body := receiveOwner s.socket t.body } }
      | _ => none
  | .readData =>
      match s.recv with
      | .owned t => do
          let m ← receiveData s.socket t.body
          some { s with recv := .built { t with body := m } }
      | _ => none
  | .enqueueIncoming calls =>
      match s.recv with
      | .built t => do
          let (status, q, dropped) ← ops.enqueue calls s.incoming t
          some { s with
            incoming := q
            recv := .idle
            deleted := s.deleted ++
              deletions .overflowIncoming [.addToQueue, .receiveThread] status dropped t }
      | _ => none
  | .updateCall maxMessages =>
      match s.work with
      | .out => some { s with work := .loop maxMessages }
      | _ => none
  | .workDequeue calls =>
      match s.work with
      | .loop (left + 1) => do
          let (r, q) ← ops.dequeueNonblocking calls s.incoming
          match r with
          | none => some { s with incoming := q }
          | some t => some { s with incoming := q, work := .got left t }
      | _ => none
  | .handle env =>
      match s.work with
      | .got left t => do
          let (m, store) ← handler env s.store t.body
          some { s with
            work := .handled left { t with body := m }
            store := store
            handledLog := s.handledLog ++ [⟨t.id, t.body, m⟩] }
      | _ => none
  | .enqueueOutgoing calls =>
      match s.work with
      | .handled left t => do
          let (status, q, dropped) ← ops.enqueue calls s.outgoing t
          some { s with
            outgoing := q
            work := .loop left
            deleted := s.deleted ++ deletions .overflowOutgoing [.addToQueue] status dropped t }
      | _ => none
  | .updateReturn isRunning =>
      match s.work with
      | .loop left => if left = 0 ∨ !isRunning then some { s with work := .out } else none
      | _ => none
  | .sendDequeue calls =>
      match s.send with
      | .idle => do
          let (r, q) ← ops.dequeueNonblocking calls s.outgoing
          match r with
          | none => some { s with outgoing := q }
          | some t => some { s with outgoing := q, send := .taken t }
      | _ => none
  | .encode =>
      match s.send with
      | .taken t => do
          let socket ← netConnectionWriteHeader s.socket t.body.header
          let (status, socket) ← netConnectionWriteData socket t.body
          if status ≠ .success then
            some { s with
              socket := socket, send := .idle, deleted := s.deleted ++ [(.rejected, t)] }
          else some { s with socket := socket, send := .encoded t }
      | _ => none
  | .address =>
      match s.send with
      | .encoded t => some { s with socket := sendOwner s.socket t.body, send := .addressed t }
      | _ => none
  | .sendto =>
      match s.send with
      | .addressed t => do
          let (bytes, dest) ←
            udpSocketSend s.socket (t.body.header.length.toNat + sizeofMessageHeader)
          some { s with
            send := .idle
            sent := s.sent ++ [⟨t, bytes, dest⟩]
            deleted := s.deleted ++ [(.afterSend, t)] }
      | _ => none

end step

/-! ## The way of a message -/

section labels

variable {ε : Type}

/-- The receive thread's way from a datagram to the incoming queue.
Source: `net_connection.c`, `net_connection_receive_thread_func`
Kind: D -/
def receiveLabels (packet : Packet) (fresh : FreshMemory) (calls : EnqueueCalls) :
    List (Label ε) :=
  [.recvfrom packet, .createHeader .allOk fresh, .readOwner, .readData, .enqueueIncoming calls]

/-- The worker's way from the incoming to the outgoing queue.
Source: `server_worker.c`, `server_worker_update`
Kind: D -/
def handleLabels (env : ε) (calls : EnqueueCalls) : List (Label ε) :=
  [.updateCall 1, .workDequeue .allOk, .handle env, .enqueueOutgoing calls, .updateReturn true]

/-- The send thread's way from the outgoing queue up to the store into `incoming_addr`.
Source: `net_connection.c`, `net_connection_send_thread_func`
Kind: D -/
def addressLabels : List (Label ε) := [.sendDequeue .allOk, .encode, .address]

/-- The send thread's way of a message that `net_connection_write_data` accepts or rejects.
Source: `net_connection.c`, `net_connection_send_thread_func`
Kind: D -/
def sendLabels (accepted : Bool) : List (Label ε) :=
  if accepted then addressLabels ++ [.sendto] else [.sendDequeue .allOk, .encode]

end labels

/-! ## What a step can do -/

section moved

variable {Q σ ε : Type} {ops : QueueOps Q} {handler : Handler ε σ}

/-- What each step can do, in terms of the state: one case for each outcome.
Source: `net_connection.c`, the two thread functions; `server_worker.c`, `server_worker_update`
Kind: D -/
inductive Moved (ops : QueueOps Q) (handler : Handler ε σ) (s : Conn Q σ) :
    Label ε → Conn Q σ → Prop
  | recvfrom {packet : Packet} (pc : s.recv = .idle) :
      Moved ops handler s (.recvfrom packet)
        { s with
          socket := s.socket.recvfrom packet
          recv := .received s.receipts.length
          receipts := s.receipts ++ [⟨packet, (s.socket.recvfrom packet).incomingBuffer⟩] }
  | recvfromFailed (pc : s.recv = .idle) : Moved ops handler s .recvfromFailed s
  | createFailed {calls : MessageCreateCalls} {fresh : FreshMemory} {id : ℕ}
      (pc : s.recv = .received id)
      (create : messageCreate calls fresh .none receiveCapacity = none) :
      Moved ops handler s (.createHeader calls fresh)
        { s with recv := .idle, unallocated := s.unallocated ++ [id] }
  | createHeader {calls : MessageCreateCalls} {fresh : FreshMemory} {id : ℕ} {new : Message}
      (pc : s.recv = .received id)
      (create : messageCreate calls fresh .none receiveCapacity = some new) :
      Moved ops handler s (.createHeader calls fresh)
        { s with
          recv := .header ⟨id, { new with header := wireHeader s.socket.incomingBuffer }⟩ }
  | readOwner {t : Tagged} (pc : s.recv = .header t) :
      Moved ops handler s .readOwner
        { s with recv := .owned { t with body := receiveOwner s.socket t.body } }
  | readData {t : Tagged} {m : Message} (pc : s.recv = .owned t)
      (data : receiveData s.socket t.body = some m) :
      Moved ops handler s .readData { s with recv := .built { t with body := m } }
  | enqueueIncoming {calls : EnqueueCalls} {t : Tagged} {status : MessageQueueStatus} {q : Q}
      {dropped : List Tagged} (pc : s.recv = .built t)
      (enqueue : ops.enqueue calls s.incoming t = some (status, q, dropped)) :
      Moved ops handler s (.enqueueIncoming calls)
        { s with
          incoming := q
          recv := .idle
          deleted := s.deleted ++
            deletions .overflowIncoming [.addToQueue, .receiveThread] status dropped t }
  | updateCall {maxMessages : ℕ} (pc : s.work = .out) :
      Moved ops handler s (.updateCall maxMessages) { s with work := .loop maxMessages }
  | workEmpty {calls : DequeueCalls} {left : ℕ} {q : Q} (pc : s.work = .loop (left + 1))
      (dequeue : ops.dequeueNonblocking calls s.incoming = some (none, q)) :
      Moved ops handler s (.workDequeue calls) { s with incoming := q }
  | workDequeue {calls : DequeueCalls} {left : ℕ} {q : Q} {t : Tagged}
      (pc : s.work = .loop (left + 1))
      (dequeue : ops.dequeueNonblocking calls s.incoming = some (some t, q)) :
      Moved ops handler s (.workDequeue calls) { s with incoming := q, work := .got left t }
  | handle {env : ε} {left : ℕ} {t : Tagged} {m : Message} {store : σ}
      (pc : s.work = .got left t) (call : handler env s.store t.body = some (m, store)) :
      Moved ops handler s (.handle env)
        { s with
          work := .handled left { t with body := m }
          store := store
          handledLog := s.handledLog ++ [⟨t.id, t.body, m⟩] }
  | enqueueOutgoing {calls : EnqueueCalls} {left : ℕ} {t : Tagged} {status : MessageQueueStatus}
      {q : Q} {dropped : List Tagged} (pc : s.work = .handled left t)
      (enqueue : ops.enqueue calls s.outgoing t = some (status, q, dropped)) :
      Moved ops handler s (.enqueueOutgoing calls)
        { s with
          outgoing := q
          work := .loop left
          deleted := s.deleted ++ deletions .overflowOutgoing [.addToQueue] status dropped t }
  | updateReturn {isRunning : Bool} {left : ℕ} (pc : s.work = .loop left)
      (done : left = 0 ∨ isRunning = false) :
      Moved ops handler s (.updateReturn isRunning) { s with work := .out }
  | sendEmpty {calls : DequeueCalls} {q : Q} (pc : s.send = .idle)
      (dequeue : ops.dequeueNonblocking calls s.outgoing = some (none, q)) :
      Moved ops handler s (.sendDequeue calls) { s with outgoing := q }
  | sendDequeue {calls : DequeueCalls} {q : Q} {t : Tagged} (pc : s.send = .idle)
      (dequeue : ops.dequeueNonblocking calls s.outgoing = some (some t, q)) :
      Moved ops handler s (.sendDequeue calls) { s with outgoing := q, send := .taken t }
  | reject {t : Tagged} {socket socket' : UdpSocket} {status : NetConnectionStatus}
      (pc : s.send = .taken t)
      (header : netConnectionWriteHeader s.socket t.body.header = some socket)
      (data : netConnectionWriteData socket t.body = some (status, socket'))
      (failed : status ≠ .success) :
      Moved ops handler s .encode
        { s with socket := socket', send := .idle, deleted := s.deleted ++ [(.rejected, t)] }
  | encode {t : Tagged} {socket socket' : UdpSocket} (pc : s.send = .taken t)
      (header : netConnectionWriteHeader s.socket t.body.header = some socket)
      (data : netConnectionWriteData socket t.body = some (.success, socket')) :
      Moved ops handler s .encode { s with socket := socket', send := .encoded t }
  | address {t : Tagged} (pc : s.send = .encoded t) :
      Moved ops handler s .address
        { s with socket := sendOwner s.socket t.body, send := .addressed t }
  | sendto {t : Tagged} {bytes : List UInt8} {dest : SockaddrIn} (pc : s.send = .addressed t)
      (send : udpSocketSend s.socket (t.body.header.length.toNat + sizeofMessageHeader) =
        some (bytes, dest)) :
      Moved ops handler s .sendto
        { s with
          send := .idle
          sent := s.sent ++ [⟨t, bytes, dest⟩]
          deleted := s.deleted ++ [(.afterSend, t)] }

variable {s s' : Conn Q σ} {l : Label ε}

/-- A datagram becomes a message, or there is no memory for it.
Source: `net_connection.c`, `net_connection_receive_thread_func`
Kind: L -/
theorem moved_of_createHeader {calls : MessageCreateCalls} {fresh : FreshMemory}
    (hs : step ops handler s (.createHeader calls fresh) = some s') :
    Moved ops handler s (.createHeader calls fresh) s' := by
  simp only [step] at hs
  split at hs
  · rename_i id pc
    split at hs
    · rename_i create
      obtain rfl := Option.some.inj hs
      exact .createFailed pc create
    · rename_i new create
      rw [receiveHeader_eq, Option.bind_eq_bind, Option.bind_some] at hs
      obtain rfl := Option.some.inj hs
      exact .createHeader pc create
  · simp at hs

/-- The update finds the incoming queue empty, or takes a request.
Source: `server_worker.c`, `server_worker_update`
Kind: L -/
theorem moved_of_workDequeue {calls : DequeueCalls}
    (hs : step ops handler s (.workDequeue calls) = some s') :
    Moved ops handler s (.workDequeue calls) s' := by
  simp only [step] at hs
  split at hs
  · rename_i left pc
    obtain ⟨⟨r, q⟩, dequeue, hs⟩ := Option.bind_eq_some_iff.mp hs
    cases r with
    | none =>
        obtain rfl := Option.some.inj hs
        exact .workEmpty pc dequeue
    | some t =>
        obtain rfl := Option.some.inj hs
        exact .workDequeue pc dequeue
  · simp at hs

/-- The send thread finds the outgoing queue empty, or takes a reply.
Source: `net_connection.c`, `net_connection_send_thread_func`
Kind: L -/
theorem moved_of_sendDequeue {calls : DequeueCalls}
    (hs : step ops handler s (.sendDequeue calls) = some s') :
    Moved ops handler s (.sendDequeue calls) s' := by
  simp only [step] at hs
  split at hs
  · rename_i pc
    obtain ⟨⟨r, q⟩, dequeue, hs⟩ := Option.bind_eq_some_iff.mp hs
    cases r with
    | none =>
        obtain rfl := Option.some.inj hs
        exact .sendEmpty pc dequeue
    | some t =>
        obtain rfl := Option.some.inj hs
        exact .sendDequeue pc dequeue
  · simp at hs

/-- A reply is written to the buffer of the socket, or rejected for its length.
Source: `net_connection.c`, `net_connection_send_thread_func`
Kind: L -/
theorem moved_of_encode (hs : step ops handler s .encode = some s') :
    Moved ops handler s .encode s' := by
  simp only [step] at hs
  split at hs
  · rename_i t pc
    obtain ⟨socket, header, hs⟩ := Option.bind_eq_some_iff.mp hs
    obtain ⟨⟨status, socket'⟩, data, hs⟩ := Option.bind_eq_some_iff.mp hs
    by_cases failed : status = .success
    · subst failed
      obtain rfl := Option.some.inj hs
      exact .encode pc header data
    · simp only [failed, ne_eq, not_false_eq_true, if_true] at hs
      obtain rfl := Option.some.inj hs
      exact .reject pc header data failed
  · simp at hs

/-- A step does one of these things.
Source: `net_connection.c`, the two thread functions; `server_worker.c`, `server_worker_update`
Kind: P -/
theorem moved_of_step (hs : step ops handler s l = some s') : Moved ops handler s l s' := by
  cases l with
  | recvfrom packet =>
      simp only [step] at hs
      split at hs
      · rename_i pc
        obtain rfl := Option.some.inj hs
        exact .recvfrom pc
      · simp at hs
  | recvfromFailed =>
      simp only [step] at hs
      split at hs
      · rename_i pc
        obtain rfl := Option.some.inj hs
        exact .recvfromFailed pc
      · simp at hs
  | createHeader calls fresh => exact moved_of_createHeader hs
  | readOwner =>
      simp only [step] at hs
      split at hs
      · rename_i t pc
        obtain rfl := Option.some.inj hs
        exact .readOwner pc
      · simp at hs
  | readData =>
      simp only [step] at hs
      split at hs
      · rename_i t pc
        obtain ⟨m, data, hs⟩ := Option.bind_eq_some_iff.mp hs
        obtain rfl := Option.some.inj hs
        exact .readData pc data
      · simp at hs
  | enqueueIncoming calls =>
      simp only [step] at hs
      split at hs
      · rename_i t pc
        obtain ⟨⟨status, q, dropped⟩, enqueue, hs⟩ := Option.bind_eq_some_iff.mp hs
        obtain rfl := Option.some.inj hs
        exact .enqueueIncoming pc enqueue
      · simp at hs
  | updateCall maxMessages =>
      simp only [step] at hs
      split at hs
      · rename_i pc
        obtain rfl := Option.some.inj hs
        exact .updateCall pc
      · simp at hs
  | workDequeue calls => exact moved_of_workDequeue hs
  | handle env =>
      simp only [step] at hs
      split at hs
      · rename_i left t pc
        obtain ⟨⟨m, store⟩, call, hs⟩ := Option.bind_eq_some_iff.mp hs
        obtain rfl := Option.some.inj hs
        exact .handle pc call
      · simp at hs
  | enqueueOutgoing calls =>
      simp only [step] at hs
      split at hs
      · rename_i left t pc
        obtain ⟨⟨status, q, dropped⟩, enqueue, hs⟩ := Option.bind_eq_some_iff.mp hs
        obtain rfl := Option.some.inj hs
        exact .enqueueOutgoing pc enqueue
      · simp at hs
  | updateReturn isRunning =>
      simp only [step] at hs
      split at hs
      · rename_i left pc
        split_ifs at hs with done
        obtain rfl := Option.some.inj hs
        exact .updateReturn pc (by simpa using done)
      · simp at hs
  | sendDequeue calls => exact moved_of_sendDequeue hs
  | encode => exact moved_of_encode hs
  | address =>
      simp only [step] at hs
      split at hs
      · rename_i t pc
        obtain rfl := Option.some.inj hs
        exact .address pc
      · simp at hs
  | sendto =>
      simp only [step] at hs
      split at hs
      · rename_i t pc
        obtain ⟨⟨bytes, dest⟩, send, hs⟩ := Option.bind_eq_some_iff.mp hs
        obtain rfl := Option.some.inj hs
        exact .sendto pc send
      · simp at hs

/-- And each of these things is a step.
Source: `net_connection.c`, the two thread functions; `server_worker.c`, `server_worker_update`
Kind: P -/
theorem step_of_moved (hm : Moved ops handler s l s') : step ops handler s l = some s' := by
  cases hm with
  | recvfrom pc => simp [step, pc, udpSocketReceiveMessage]
  | recvfromFailed pc =>
      simp only [step, pc, udpSocketReceiveMessage]
      rw [← pc]
  | createFailed pc create => simp [step, pc, create]
  | createHeader pc create => simp [step, pc, create, receiveHeader_eq]
  | readOwner pc => simp [step, pc]
  | readData pc data => simp [step, pc, data]
  | enqueueIncoming pc enqueue => simp [step, pc, enqueue]
  | updateCall pc => simp [step, pc]
  | workEmpty pc dequeue => simp [step, pc, dequeue]
  | workDequeue pc dequeue => simp [step, pc, dequeue]
  | handle pc call => simp [step, pc, call]
  | enqueueOutgoing pc enqueue => simp [step, pc, enqueue]
  | updateReturn pc done => simp [step, pc, done]
  | sendEmpty pc dequeue => simp [step, pc, dequeue]
  | sendDequeue pc dequeue => simp [step, pc, dequeue]
  | reject pc header data failed => simp [step, pc, header, data, failed]
  | encode pc header data => simp [step, pc, header, data]
  | address pc => simp [step, pc]
  | sendto pc send => simp [step, pc, send]

end moved

/-! ## The ring buffers refine the abstract queues -/

section refinement

variable {σ ε : Type} {handler : Handler ε σ}

/-- The queues of `message_queue.c`.
Source: `message_queue.c`, `message_queue_enqueue`, `message_queue_dequeue_nonblocking`
Kind: D -/
def ringOps : QueueOps (MessageQueue Tagged) :=
  ⟨messageQueueEnqueue, messageQueueDequeueNonblocking⟩

/-- The abstract queues.
Source: none: infrastructure
Kind: D -/
def fifoOps : QueueOps (Fifo Tagged) :=
  ⟨fun calls q t => some (q.enqueue calls t), fun calls q => some (q.dequeueNonblocking calls)⟩

/-- Both ring buffers stand for abstract queues.
Source: none: infrastructure
Kind: D -/
def Conn.Valid (s : Conn (MessageQueue Tagged) σ) : Prop := s.incoming.Valid ∧ s.outgoing.Valid

/-- The abstract connection a connection stands for.
Source: none: infrastructure
Kind: D -/
def Conn.fifo (s : Conn (MessageQueue Tagged) σ) : Conn (Fifo Tagged) σ :=
  { s with incoming := s.incoming.fifo, outgoing := s.outgoing.fifo }

/-- An enqueue to a ring buffer is one to the queue that it represents.
Source: `net_connection.c`, the two thread functions; `server_worker.c`, `server_worker_update`
Kind: L -/
theorem fifoOps_enqueue {q q' : MessageQueue Tagged} (h : q.Valid) {calls : EnqueueCalls}
    {t : Tagged} {status : MessageQueueStatus} {dropped : List Tagged}
    (he : ringOps.enqueue calls q t = some (status, q', dropped)) :
    fifoOps.enqueue calls q.fifo t = some (status, q'.fifo, dropped) ∧ q'.Valid := by
  obtain ⟨habs, hvalid⟩ := h.enqueue he
  exact ⟨congrArg some habs, hvalid⟩

/-- So is a dequeue.
Source: `net_connection.c`, the two thread functions; `server_worker.c`, `server_worker_update`
Kind: L -/
theorem fifoOps_dequeueNonblocking {q q' : MessageQueue Tagged} (h : q.Valid)
    {calls : DequeueCalls} {r : Option Tagged}
    (he : ringOps.dequeueNonblocking calls q = some (r, q')) :
    fifoOps.dequeueNonblocking calls q.fifo = some (r, q'.fifo) ∧ q'.Valid := by
  obtain ⟨habs, hvalid⟩ := h.dequeueNonblocking he
  exact ⟨congrArg some habs, hvalid⟩

/-- **One step refines.** A step over ring buffers is the same step over abstract queues.
Source: `net_connection.c`, the two thread functions; `server_worker.c`, `server_worker_update`
Kind: P -/
theorem Moved.refines {s s' : Conn (MessageQueue Tagged) σ} {l : Label ε} (h : s.Valid)
    (hm : Moved ringOps handler s l s') :
    Moved fifoOps handler s.fifo l s'.fifo ∧ s'.Valid := by
  obtain ⟨hin, hout⟩ := h
  cases hm with
  | recvfrom pc => exact ⟨.recvfrom (s := s.fifo) pc, hin, hout⟩
  | recvfromFailed pc => exact ⟨.recvfromFailed (s := s.fifo) pc, hin, hout⟩
  | createFailed pc create => exact ⟨.createFailed (s := s.fifo) pc create, hin, hout⟩
  | createHeader pc create => exact ⟨.createHeader (s := s.fifo) pc create, hin, hout⟩
  | readOwner pc => exact ⟨.readOwner (s := s.fifo) pc, hin, hout⟩
  | readData pc data => exact ⟨.readData (s := s.fifo) pc data, hin, hout⟩
  | enqueueIncoming pc enqueue =>
      obtain ⟨habs, hq⟩ := fifoOps_enqueue hin enqueue
      exact ⟨.enqueueIncoming (s := s.fifo) pc habs, hq, hout⟩
  | updateCall pc => exact ⟨.updateCall (s := s.fifo) pc, hin, hout⟩
  | workEmpty pc dequeue =>
      obtain ⟨habs, hq⟩ := fifoOps_dequeueNonblocking hin dequeue
      exact ⟨.workEmpty (s := s.fifo) pc habs, hq, hout⟩
  | workDequeue pc dequeue =>
      obtain ⟨habs, hq⟩ := fifoOps_dequeueNonblocking hin dequeue
      exact ⟨.workDequeue (s := s.fifo) pc habs, hq, hout⟩
  | handle pc call => exact ⟨.handle (s := s.fifo) pc call, hin, hout⟩
  | enqueueOutgoing pc enqueue =>
      obtain ⟨habs, hq⟩ := fifoOps_enqueue hout enqueue
      exact ⟨.enqueueOutgoing (s := s.fifo) pc habs, hin, hq⟩
  | updateReturn pc done => exact ⟨.updateReturn (s := s.fifo) pc done, hin, hout⟩
  | sendEmpty pc dequeue =>
      obtain ⟨habs, hq⟩ := fifoOps_dequeueNonblocking hout dequeue
      exact ⟨.sendEmpty (s := s.fifo) pc habs, hin, hq⟩
  | sendDequeue pc dequeue =>
      obtain ⟨habs, hq⟩ := fifoOps_dequeueNonblocking hout dequeue
      exact ⟨.sendDequeue (s := s.fifo) pc habs, hin, hq⟩
  | reject pc header data failed =>
      exact ⟨.reject (s := s.fifo) pc header data failed, hin, hout⟩
  | encode pc header data => exact ⟨.encode (s := s.fifo) pc header data, hin, hout⟩
  | address pc => exact ⟨.address (s := s.fifo) pc, hin, hout⟩
  | sendto pc send => exact ⟨.sendto (s := s.fifo) pc send, hin, hout⟩

/-- **Every run refines.** A run over ring buffers is, label for label, a run over abstract queues,
under the same condition on its steps.
Source: `net_connection.c`, the two thread functions; `server_worker.c`, `server_worker_update`
Kind: P -/
theorem run_refines {ok : Conn (MessageQueue Tagged) σ → Label ε → Prop}
    {ok' : Conn (Fifo Tagged) σ → Label ε → Prop} (hok : ∀ s l, ok s l → ok' s.fifo l)
    {s₀ s : Conn (MessageQueue Tagged) σ} (h₀ : s₀.Valid) {ls : List (Label ε)}
    (h : Run (step ringOps handler) ok s₀ ls s) :
    Run (step fifoOps handler) ok' s₀.fifo ls s.fifo ∧ s.Valid := by
  have hsim : ∃ t, Run (step fifoOps handler) ok' s₀.fifo ls t ∧ t = s.fifo ∧ s.Valid := by
    refine h.simulate (R := fun s t => t = s.fifo ∧ s.Valid) ⟨rfl, h₀⟩ ?_
    rintro s t l s' ⟨rfl, hvalid⟩ hstep hs
    obtain ⟨hm, hvalid'⟩ := (moved_of_step hs).refines hvalid
    exact ⟨hok s l hstep, s'.fifo, step_of_moved hm, rfl, hvalid'⟩
  obtain ⟨t, hrun, rfl, hvalid⟩ := hsim
  exact ⟨hrun, hvalid⟩

/-- Every run of a new connection refines a run from empty abstract queues.
Source: `net_connection.c`, the two thread functions; `server_worker.c`, `server_worker_update`
Kind: P -/
theorem run_refines_of_create {ok : Conn (MessageQueue Tagged) σ → Label ε → Prop}
    {ok' : Conn (Fifo Tagged) σ → Label ε → Prop} (hok : ∀ s l, ok s l → ok' s.fifo l)
    {calls₁ calls₂ : CreateCalls} {c₁ c₂ : ℤ} {q₁ q₂ : MessageQueue Tagged} (hc₁ : c₁ ≤ intMax)
    (hc₂ : c₂ ≤ intMax) (hq₁ : messageQueueCreate calls₁ c₁ = some q₁)
    (hq₂ : messageQueueCreate calls₂ c₂ = some q₂) {socket : UdpSocket} {store : σ}
    {ls : List (Label ε)} {s : Conn (MessageQueue Tagged) σ}
    (h : Run (step ringOps handler) ok (Conn.init socket q₁ q₂ store) ls s) :
    Run (step fifoOps handler) ok'
      (Conn.init socket ⟨c₁.toNat, []⟩ ⟨c₂.toNat, []⟩ store) ls s.fifo ∧ s.Valid := by
  obtain ⟨hcap₁, hrep₁⟩ := represents_of_messageQueueCreate hq₁ hc₁
  obtain ⟨hcap₂, hrep₂⟩ := represents_of_messageQueueCreate hq₂ hc₂
  have hvalid : (Conn.init socket q₁ q₂ store).Valid := ⟨hrep₁.valid, hrep₂.valid⟩
  have hinit : (Conn.init socket q₁ q₂ store).fifo =
      Conn.init socket ⟨c₁.toNat, []⟩ ⟨c₂.toNat, []⟩ store := by
    rw [← hcap₁, ← hcap₂, ← hrep₁.fifo_eq, ← hrep₂.fifo_eq]
    rfl
  rw [← hinit]
  exact run_refines hok hvalid h

end refinement

end CpuMonitor.Server
