import CpuMonitor.Cluster.Deployment
import CpuMonitor.Server.Progress
import CpuMonitor.Server.UsageText

/-!
# What holds across the deployed system

For every number of workers and client connections, every run of all their threads and every
behaviour of a network that loses, delays, reorders and duplicates datagrams:

* `datagrams_stay_between_peers` — a client connection only sends requests, to its own worker; a
  worker only sends to its own client connections. A reply may reach another client than the one
  that asked, but never one of another worker;
* `only_requests_handled` — the worker function is only called with requests for pids that some
  client of this worker asked for, so no worker ever logs an invalid request;
* `printed_is_answer` — whatever a client prints is what its own worker answered, in a call of this
  run that was for a request that one of the worker's clients made in this run;
* `client_in_bounds` — and no thread of a client leaves a buffer, `printf` included;
* `printed_usage_accurate` — so the number on the client's screen is the usage that the readings of
  the counters in that call give, up to half a millionth and the roundings of the computation.

All of them are read off the contract of the system (`nodeInv_of_run`) and the histories of its
nodes (`received_comesFrom`).
-/

namespace CpuMonitor.Cluster

open CpuMonitor.Lib CpuMonitor.Network CpuMonitor.Server CpuMonitor.Client

/-! ## A round trip

One worker, one client connection, one pid: the run in which the request is answered and printed.
-/

/-- A worker on port 5000 and a client connection that is set up for it.
Source: none: infrastructure
Kind: D -/
def pairAddress : Unit ⊕ Unit → SockaddrIn
  | .inl _ => ⟨2, htons 5000, 16777343, 0⟩
  | .inr _ => ⟨2, htons 40000, 16777343, 0⟩

/-- The two nodes have different endpoints.
Source: none: infrastructure
Kind: L -/
theorem pairAddress_distinct : Function.Injective fun i => endpoint (pairAddress i) := by
  decide

/-- One worker and one client that sends to it.
Source: none: infrastructure
Kind: D -/
def pairLayout : Layout Unit Unit where
  address := pairAddress
  distinct := pairAddress_distinct
  server := id
  serverSockaddrs := fun _ => serverSockaddr 16777343 5000 99
  reaches := fun _ => rfl

/-- An empty queue of a client.
Source: none: infrastructure
Kind: D -/
def clientQueue : MessageQueue Tagged := ⟨List.replicate 5 none, 5, 0, 0⟩

/-- Both of them before their first step.
Source: none: infrastructure
Kind: D -/
def pairStart : (i : Unit ⊕ Unit) → NodeState Unit Unit i
  | .inl _ => Conn.init (udpSocketCreate ⟨0, 0, 0, 0⟩) emptyQueue emptyQueue ()
  | .inr _ => ClientNode.mk
      (Conn.init (udpSocketCreate ⟨0, 0, 0, 0⟩) clientQueue clientQueue ()) 0 []

/-- Both nodes start as the creating functions leave them.
Source: none: infrastructure
Kind: L -/
theorem pairStart_started (i : Unit ⊕ Unit) : Started i (pairStart i) := by
  cases i with
  | inl _ =>
      exact ⟨_, .allOk, .allOk, emptyQueue, emptyQueue, messageQueueCreate_emptyQueue,
        messageQueueCreate_emptyQueue, rfl⟩
  | inr _ => exact ⟨_, .allOk, .allOk, clientQueue, clientQueue, rfl, rfl, rfl⟩

/-- The request for the pid 7, as it arrives.
Source: none: infrastructure
Kind: D -/
def pairRequest : Packet :=
  ⟨(pidMessage (serverSockaddr 16777343 5000 99) 7).datagram, pairAddress (.inr ())⟩

/-- The answer to it, as it arrives.
Source: none: infrastructure
Kind: D -/
def pairAnswer : Packet :=
  ⟨Message.datagram ⟨⟨1, 9, pairAddress (.inr ()), 9⟩, ascii "0.000000" ++ [0]⟩,
    pairAddress (.inl ())⟩

/-- A request for the pid 7 and its way back: sent, received, handled, sent, received and printed.
Source: none: infrastructure
Kind: D -/
def pairRun : List (Σ i, NodeLabel Unit Unit i) :=
  [clientLabel () (.send ⟨.allOk, zeroMemory, .allOk⟩ 7)] ++
  (sendLabels true).map (fun l => clientLabel () (.thread l)) ++
  (receiveLabels pairRequest zeroMemory .allOk ++
    handleLabels (quietEnv, noRoom) .allOk ++ sendLabels true).map (workerLabel ()) ++
  (receiveLabels pairAnswer zeroMemory .allOk).map (fun l => clientLabel () (.thread l)) ++
  [clientLabel () (.print .allOk)]

/-- The request is sent, handled, answered and printed.
Source: `client.c`, `print_received_messages`; `server.c`, `worker_on_message`
Kind: C -/
theorem pairRun_prints :
    ∃ s, SystemRun pairLayout pairStart pairRun s ∧
      (client s ()).printed.map Printed.text = [ascii "0.000000"] ∧
      (worker s ()).sent.length = 1 ∧ (worker s ()).handledLog.length = 1 := by
  obtain ⟨s, hrun, hs⟩ := Run.exists_of_exec
    (show (exec (deployment pairLayout).step (deployment pairLayout).Delivered pairStart
        pairRun).map
      (fun s => decide ((client s ()).printed.map Printed.text = [ascii "0.000000"] ∧
        (worker s ()).sent.length = 1 ∧ (worker s ()).handledLog.length = 1)) =
          some true by decide +kernel)
  exact ⟨s, hrun, of_decide_eq_true hs⟩

/-! ## The system -/

section system

variable {W C : Type} [DecidableEq W] [DecidableEq C] {layout : Layout W C}
  {s₀ s : (i : W ⊕ C) → NodeState W C i} {ls : List (Σ i, NodeLabel W C i)} {w : W}

/-- **Datagrams stay between peers.** In every run, whatever the network does and however the two
threads of each connection overwrite each other's address: everything a client connection hands to
`sendto` goes to the endpoint of its own worker and is the datagram of a request that it was asked
to send; everything a worker hands to `sendto` goes to the endpoint of a client connection that is
set up for this worker.
Source: `net_connection.c`, the two thread functions; `client.c`, `client_send_pid_message`;
`socket_udp.c`
Kind: P
Hyps: no two sockets are bound to one endpoint (`Layout`) -/
theorem datagrams_stay_between_peers (h₀ : ∀ i, Started i (s₀ i)) (h : SystemRun layout s₀ ls s) :
    (∀ c, ∀ x ∈ (client s c).conn.sent,
      endpoint x.dest = endpoint (layout.address (.inl (layout.server c))) ∧
      ∃ calls pid, clientLabel c (.send calls pid) ∈ ls ∧
        x.bytes = (pidMessage (layout.serverSockaddrs c) pid).datagram) ∧
    ∀ w, ∀ x ∈ (worker s w).sent, ∃ c, layout.server c = w ∧
      endpoint x.dest = endpoint (layout.address (.inr c)) := by
  constructor
  · intro c x hx
    have hinv := nodeInv_of_run h₀ h (.inr c)
    obtain ⟨hdest, pid, ⟨calls, hasked⟩, hbytes⟩ := sending_client hinv.2 hx
    exact ⟨hdest, calls, pid, hasked, hbytes⟩
  · intro w x hx
    have hinv := nodeInv_of_run h₀ h (.inl w)
    exact (hinv.link.sent x hx).1

/-- In the round trip the answer goes back to the client.
Source: `client.c`, `print_received_messages`; `server.c`, `worker_on_message`
Kind: C -/
theorem datagrams_stay_between_peers_pair :
    ∃ s, SystemRun pairLayout pairStart pairRun s ∧
      ∃ x ∈ (worker s ()).sent, endpoint x.dest = endpoint (pairAddress (.inr ())) := by
  obtain ⟨s, hrun, -, hsent, -⟩ := pairRun_prints
  obtain ⟨x, hx⟩ := List.exists_mem_of_length_pos (hsent ▸ Nat.one_pos)
  obtain ⟨c, -, hdest⟩ := (datagrams_stay_between_peers pairStart_started hrun).2 () x hx
  exact ⟨s, hrun, x, hx, hdest⟩

/-- **Only requests are handled.** In every run, every call of a worker's function is for a message
of type `MESSAGE_TYPE_PID` with a pid that a client connection of this worker was asked to send: the
branch that logs an invalid request is never taken, whatever the network does.
Source: `server.c`, `worker_on_message`; `net_connection.c`, `net_connection_receive_thread_func`;
`client.c`, `client_send_pid_message`
Kind: P
Hyps: as above; every datagram was sent by a node of the system -/
theorem only_requests_handled (h₀ : ∀ i, Started i (s₀ i)) (h : SystemRun layout s₀ ls s) (w : W)
    {x : Handled} (hx : x ∈ (worker s w).handledLog) :
    x.before.header.type = MessageType.pid.code ∧
      ∃ c calls pid, layout.server c = w ∧ clientLabel c (.send calls pid) ∈ ls ∧
        messagePid x.before = some pid := by
  have hinv := nodeInv_of_run h₀ h (.inl w)
  obtain ⟨pid, ⟨c, hserver, calls, hasked⟩, htype, hpid, -⟩ :=
    hinv.handled (fun _ hpacket => hpacket.2) hx
  exact ⟨htype, c, calls, pid, hserver, hasked, hpid⟩

/-- In the round trip the one call is for the request of the client.
Source: `client.c`, `print_received_messages`; `server.c`, `worker_on_message`
Kind: C -/
theorem only_requests_handled_pair :
    ∃ s, SystemRun pairLayout pairStart pairRun s ∧
      ∃ x ∈ (worker s ()).handledLog, x.before.header.type = MessageType.pid.code := by
  obtain ⟨s, hrun, -, -, hlog⟩ := pairRun_prints
  obtain ⟨x, hx⟩ := List.exists_mem_of_length_pos (hlog ▸ Nat.one_pos)
  exact ⟨s, hrun, x, hx, (only_requests_handled pairStart_started hrun () hx).1⟩

/-- The call that a received message comes from: it is the `k`-th call of the worker's function, for
a request for `pid` of one of the worker's clients, and the message has the payload of its result.
Source: none: infrastructure
Kind: D -/
structure ComesFrom (layout : Layout W C) (ls : List (Σ i, NodeLabel W C i))
    (s : (i : W ⊕ C) → NodeState W C i) (c : C) (m : Message) (k : ℕ) (env : WorkerEnv)
    (call : Handled) (pid : BitVec 32) : Prop where
  callOf : CallOf ls s (layout.server c) k env call
  asked : AskedOf layout (AskedIn ls) (layout.server c) pid
  pid_eq : messagePid call.before = some pid
  payload_eq : payload m = payload call.after
  answers : Answers env.1 pid m

omit [DecidableEq W] [DecidableEq C] in
/-- What a worker has sent is the result of a call of its function for a request.
Source: `client.c`, `print_received_messages`; `server.c`, `worker_on_message`
Kind: P -/
theorem sent_of_call (hinv : NodeInv layout (AskedIn ls) (.inl w) (s (.inl w))) {o : Sent}
    (ho : o ∈ (worker s w).sent) :
    Fits o.message.body ∧ o.bytes = o.message.body.datagram ∧
      ∃ call ∈ (worker s w).handledLog, call.after = o.message.body := by
  obtain ⟨-, hfits, hbytes⟩ := hinv.link.sent o ho
  have hreply : o.message ∈ (worker s w).fifo.replies :=
    List.mem_append_left _ (List.mem_map_of_mem ho)
  obtain ⟨call, hcall, -, hafter⟩ := hinv.traced.replies o.message hreply
  exact ⟨hfits, hbytes, call, hcall, hafter⟩

/-- **A message that a client connection has received comes from a call of its worker**: the
datagram was sent by a node, endpoints are distinct, so it was the worker, and what the worker sends
are the results in its log.
Source: `client.c`, `print_received_messages`; `server.c`, `worker_on_message`
Kind: P -/
theorem received_comesFrom (h₀ : ∀ i, Started i (s₀ i)) (h : SystemRun layout s₀ ls s) (c : C)
    {id : ℕ} {m : Message} (horigin : (client s c).conn.fifo.Origin id m) :
    (∃ k env call pid, ComesFrom layout ls s c m k env call pid) ∧
      ∃ rest, m.data = payload m ++ rest := by
  obtain ⟨r, hr, owner, fresh, hm⟩ := horigin
  have hmem : r ∈ (client s c).conn.receipts := List.mem_of_getElem? hr
  obtain ⟨hpeer, buffer, hbuffer⟩ := (nodeInv_of_run h₀ h (.inr c)).2.link.receipts r hmem
  -- the datagram was sent by the client's worker
  obtain ⟨j, o, ho, -, hpacket⟩ := (recorded_deployment layout).sourced
    (fun i => delivered_of_started (h₀ i)) h (.inr c) r.packet (List.mem_map_of_mem hmem)
  rw [hpacket] at hpeer hbuffer
  obtain rfl : j = .inl (layout.server c) := layout.distinct hpeer
  -- so it is the result of a call
  have hworker := nodeInv_of_run h₀ h (.inl (layout.server c))
  obtain ⟨hfits, hbytes, call, hcall, hafter⟩ := sent_of_call hworker ho
  obtain ⟨k, env, hcallOf⟩ := exists_callOf h₀ h hcall
  obtain ⟨pid, hasked, -, hpid, hanswers⟩ :=
    hworker.handled (fun _ hpacket => hpacket.2) hcall
  rw [hbuffer, hbytes] at hm
  obtain ⟨htype, hpayload, hdata⟩ := payload_of_built hfits hm
  rw [← hafter] at htype hpayload
  exact ⟨⟨k, env, call, pid, hcallOf, hasked, hpid, hpayload,
    (hanswers env hcallOf.result).congr htype hpayload⟩, hdata⟩

/-- A text that was printed comes from a call; after successful library calls it is the response.
Source: `client.c`, `print_received_messages`; `server.c`, `worker_on_message`
Kind: L -/
theorem printed_comesFrom (h₀ : ∀ i, Started i (s₀ i)) (h : SystemRun layout s₀ ls s) (c : C)
    {x : Printed} (hx : x ∈ (client s c).printed) :
    ∃ k env call pid, ComesFrom layout ls s c x.message.body k env call pid ∧
      (env.1.AllOk → x.text = (responsePid env.1 pid).1.bytes) := by
  obtain ⟨horigin, htext⟩ := (nodeInv_of_run h₀ h (.inr c)).2.printed x hx
  obtain ⟨⟨k, env, call, pid, hfrom⟩, hdata⟩ := received_comesFrom h₀ h c horigin
  refine ⟨k, env, call, pid, hfrom, fun hok => ?_⟩
  exact Option.some.inj (htext.symm.trans (hfrom.answers.printfString_eq hok hdata))

/-- **What a client prints is an answer.** In every run, for everything that a client connection has
printed there is a call of its worker's function in this run such that the message that the function
was called with asks for a pid that a client connection of the same worker has sent in this run, the
printed message has the payload of the call's result, and it is the answer for that pid with what
the call got from the system; if `snprintf` and `realloc` succeeded in the call, the text is exactly
the response for the pid. With only one connection to the worker the request is its own.
Source: `client.c`, `print_received_messages`, `client_send_pid_message`; `server.c`,
`worker_on_message`; `net_connection.c`
Kind: P
Hyps: as above -/
theorem printed_is_answer (h₀ : ∀ i, Started i (s₀ i)) (h : SystemRun layout s₀ ls s) (c : C)
    {x : Printed} (hx : x ∈ (client s c).printed) :
    ∃ k env call pid, CallOf ls s (layout.server c) k env call ∧
      messagePid call.before = some pid ∧
      (∃ c' calls, layout.server c' = layout.server c ∧ clientLabel c' (.send calls pid) ∈ ls) ∧
      payload x.message.body = payload call.after ∧ Answers env.1 pid x.message.body ∧
      (env.1.AllOk → x.text = (responsePid env.1 pid).1.bytes) := by
  obtain ⟨k, env, call, pid, hfrom, htext⟩ := printed_comesFrom h₀ h c hx
  obtain ⟨c', hserver, calls, hasked⟩ := hfrom.asked
  exact ⟨k, env, call, pid, hfrom.callOf, hfrom.pid_eq, ⟨c', calls, hserver, hasked⟩,
    hfrom.payload_eq, hfrom.answers, htext⟩

/-- In the round trip one text is printed, the answer of the worker's call.
Source: `client.c`, `print_received_messages`; `server.c`, `worker_on_message`
Kind: C -/
theorem printed_is_answer_pair :
    ∃ s, SystemRun pairLayout pairStart pairRun s ∧
      ∃ x ∈ (client s ()).printed, ∃ k env call pid, CallOf pairRun s () k env call ∧
        messagePid call.before = some pid ∧ payload x.message.body = payload call.after := by
  obtain ⟨s, hrun, hprinted, -, -⟩ := pairRun_prints
  have hlength : (client s ()).printed.length = 1 := by
    simpa using congrArg List.length hprinted
  obtain ⟨x, hx⟩ := List.exists_mem_of_length_pos (hlength ▸ Nat.one_pos)
  obtain ⟨k, env, call, pid, hcall, hpid, -, hpayload, -, -⟩ :=
    printed_is_answer pairStart_started hrun () hx
  exact ⟨s, hrun, x, hx, k, env, call, pid, hcall, hpid, hpayload⟩

/-- Nothing that a thread of a client is about to do leaves a buffer.
Source: none: infrastructure
Kind: D -/
structure ClientInBounds (s : ClientNode (MessageQueue Tagged)) : Prop where
  /-- `net_connection_read_data`. -/
  decode : ∀ t, s.conn.recv = .owned t → ∃ m, receiveData s.conn.socket t.body = some m
  /-- `net_connection_write_header` and `net_connection_write_data`, which rejects nothing. -/
  encode : ∀ t, s.conn.send = .taken t →
    ∃ s₁ s₂, netConnectionWriteHeader s.conn.socket t.body.header = some s₁ ∧
      netConnectionWriteData s₁ t.body = some (.success, s₂)
  /-- `printf` of a message that waits to be printed. -/
  print : ∀ t ∈ s.conn.incoming.contents, ∃ text, printfString t.body.data = some text

/-- **A client stays in bounds.** In every run in which the workers' `snprintf` and `realloc`
succeed, no thread of a client connection is about to leave a buffer: the receive thread copies into
the block of the message, the send thread copies out of it, and every message that waits to be
printed has a NUL in its block.
Source: `client.c`, `print_received_messages`; `net_connection.c`, the two thread functions
Kind: P
Hyps: as above -/
theorem client_in_bounds (h₀ : ∀ i, Started i (s₀ i)) (h : SystemRun layout s₀ ls s)
    (hok : ∀ w env, workerLabel w (.handle env) ∈ ls → env.1.AllOk) (c : C) :
    ClientInBounds (client s c) := by
  have hinv := (nodeInv_of_run h₀ h (.inr c)).2
  refine ⟨?_, ?_, ?_⟩
  · intro t hpc
    have hdecoding := hinv.link.decoding
    simp only [Conn.Decoding, ClientNode.fifo, Conn.fifo,
      show ClientNode.conn (s (.inr c)) = (client s c).conn from rfl, hpc] at hdecoding
    obtain ⟨r, -, -, owner, fresh, hbody⟩ := hdecoding
    have hblock : t.body.data = fresh.block udpSocketBufferSize := by rw [hbody]
    exact ⟨_, receiveData_eq (hblock ▸ maxPayload_le_block fresh)⟩
  · intro t hpc
    have hreply : t ∈ (client s c).conn.fifo.replies := by
      simp [Conn.replies, Conn.waiting, Conn.fifo, SendPc.hand, hpc]
    obtain ⟨pid, -, hbody⟩ := hinv.outgoing t hreply
    obtain ⟨b₁, hwrite₁, hheader⟩ := netConnectionWriteHeader_eq (client s c).conn.socket
      t.body.header
    obtain ⟨b₂, hwrite₂, -⟩ := @netConnectionWriteData_of_le
      { (client s c).conn.socket with outcomingBuffer := b₁ } t.body hheader
      (by rw [hbody]; exact sizeofPid_le_maxPayload) (by rw [hbody]; exact (length_leBytes _ _).ge)
    exact ⟨_, _, hwrite₁, hwrite₂⟩
  · intro t ht
    have hrequest : t ∈ (client s c).conn.fifo.requests := List.mem_append_right _ ht
    obtain ⟨⟨k, env, call, pid, hfrom⟩, hdata⟩ :=
      received_comesFrom h₀ h c (hinv.link.requests t hrequest)
    exact ⟨_, hfrom.answers.printfString_eq (hok _ env hfrom.callOf.mem_labels) hdata⟩

/-- What a step hands to the worker function of the system's answers.
Source: none: infrastructure
Kind: D -/
def handledEnv : (Σ i, NodeLabel Unit Unit i) → Option WorkerEnv
  | ⟨.inl _, .handle env⟩ => some env
  | _ => none

/-- What the worker of the round trip is called with.
Source: `client.c`, `print_received_messages`; `server.c`, `worker_on_message`
Kind: L -/
theorem pairRun_env (w : Unit) (env : WorkerEnv) (h : workerLabel w (.handle env) ∈ pairRun) :
    env = (quietEnv, noRoom) := by
  have hmem : env ∈ pairRun.filterMap handledEnv := List.mem_filterMap.mpr ⟨_, h, rfl⟩
  rw [show pairRun.filterMap handledEnv = [(quietEnv, noRoom)] from rfl] at hmem
  exact List.mem_singleton.mp hmem

/-- Every call of the handler in this run has its library calls succeed.
Source: none: infrastructure
Kind: L -/
theorem pairRun_allOk (w : Unit) (env : WorkerEnv)
    (h : workerLabel w (.handle env) ∈ pairRun) : env.1.AllOk := by
  rw [pairRun_env w env h]
  exact quietEnv_allOk

/-- The client of the round trip stays in bounds.
Source: `client.c`, `print_received_messages`; `server.c`, `worker_on_message`
Kind: C -/
theorem client_in_bounds_pair :
    ∃ s, SystemRun pairLayout pairStart pairRun s ∧ ClientInBounds (client s ()) := by
  obtain ⟨s, hrun, -, -, -⟩ := pairRun_prints
  exact ⟨s, hrun, client_in_bounds pairStart_started hrun pairRun_allOk ()⟩

/-- **What a client prints is a usage.** Let the `k`-th call of each worker, if it is for a request
for a pid, compute the usage in `double`s from the readings `reads w k` of the counters, with
`snprintf` and `realloc` succeeding. Then in every run, for everything that a client connection has
printed there is a call of its worker's function, for a pid that a client connection of the same
worker has asked for, such that the printed message has the payload of the call's result and the
text reports the readings of that call: it is `not found` if a reading failed or the process's time
went back, and otherwise a number that is the exact usage up to half a millionth and four roundings.
Source: `process_cpu_usage.c`, `get_process_cpu_usage`; `server.c`, `worker_on_message`,
`message_set_data`; `net_connection.c`; `client.c`, `print_received_messages`
Kind: P
Hyps: as above -/
theorem printed_usage_accurate {R : Rounding} (hR : R.IsDouble) (h₀ : ∀ i, Started i (s₀ i))
    (h : SystemRun layout s₀ ls s) (reads : W → ℕ → CounterReads)
    (hmeasured : ∀ w k env call pid, CallOf ls s w k env call →
      messagePid call.before = some pid → env.1.AllOk ∧ Measured R env.1 pid (reads w k)) (c : C)
    {x : Printed} (hx : x ∈ (client s c).printed) :
    ∃ k env call pid, CallOf ls s (layout.server c) k env call ∧
      messagePid call.before = some pid ∧
      (∃ c' calls, layout.server c' = layout.server c ∧ clientLabel c' (.send calls pid) ∈ ls) ∧
      payload x.message.body = payload call.after ∧
      ReportsUsage (reads (layout.server c) k) x.text := by
  obtain ⟨k, env, call, pid, hfrom, htext⟩ := printed_comesFrom h₀ h c hx
  obtain ⟨c', hserver, calls, hasked⟩ := hfrom.asked
  obtain ⟨hok, hreads⟩ := hmeasured _ k env call pid hfrom.callOf hfrom.pid_eq
  refine ⟨k, env, call, pid, hfrom.callOf, hfrom.pid_eq, ⟨c', calls, hserver, hasked⟩,
    hfrom.payload_eq, ?_⟩
  rw [htext hok]
  exact response_of_measured hR hreads

/-- The text of the round trip reports two equal samples.
Source: `client.c`, `print_received_messages`; `server.c`, `worker_on_message`
Kind: C -/
theorem printed_usage_accurate_pair :
    ∃ s, SystemRun pairLayout pairStart pairRun s ∧
      ∃ x ∈ (client s ()).printed, ReportsUsage sameSamples x.text := by
  obtain ⟨s, hrun, hprinted, -, -⟩ := pairRun_prints
  have hlength : (client s ()).printed.length = 1 := by
    simpa using congrArg List.length hprinted
  obtain ⟨x, hx⟩ := List.exists_mem_of_length_pos (hlength ▸ Nat.one_pos)
  have hquiet : ∀ w k env call pid, CallOf pairRun s w k env call →
      messagePid call.before = some pid →
      env.1.AllOk ∧ Measured exactly env.1 pid sameSamples := by
    intro w k env call pid hcall _
    rw [pairRun_env w env hcall.mem_labels]
    exact ⟨quietEnv_allOk, measured_zero rfl⟩
  obtain ⟨k, env, call, pid, -, -, -, -, hreports⟩ :=
    printed_usage_accurate exactly_isDouble pairStart_started hrun (fun _ _ => sameSamples)
      hquiet () hx
  exact ⟨s, hrun, x, hx, hreports⟩

end system

end CpuMonitor.Cluster
