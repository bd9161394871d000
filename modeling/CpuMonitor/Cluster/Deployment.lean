import CpuMonitor.Cluster.Exchange
import CpuMonitor.Lib.Datagrams

/-!
# The deployed system: any number of clients and workers

All sockets of the system and the network between them: the workers of `server.c`, each with a
connection of its own, and the connections of any number of clients, each of which is set up for the
port of one worker. The network may lose, delay, reorder and duplicate datagrams.

* **The layout** `Layout W C`: which endpoint each socket is bound to, and which worker each client
  connection is set up for.
* **The system** `deployment`: the workers (`step` with `workerHandler`) and the client connections
  (`clientNodeStep`) as components of an `Assembly`.
* **Histories** `CallOf`: the calls of a worker's function in a run are the entries of its log, one
  for one (`callsOf_handledLog`); every datagram that was delivered is among those sent
  (`recorded_deployment`).
* **The contract** `deploymentContract`: a worker assumes that it only gets requests of its own
  clients and guarantees that it only sends to them; a client assumes that what it gets comes from
  its worker and guarantees that it only sends requests to it. All of this holds although the two
  threads of a connection overwrite each other's address.
-/

namespace CpuMonitor.Cluster

open CpuMonitor.Lib CpuMonitor.Network CpuMonitor.Server CpuMonitor.Client

/-! ## The layout -/

/-- What the network looks at in an address: family, port and host, not the padding.
Source: none: infrastructure
Kind: D -/
def endpoint (a : SockaddrIn) : UInt16 × UInt16 × UInt32 := (a.family, a.port, a.addr)

/-- Where the sockets of workers `W` and client connections `C` are bound, and the worker that each
client connection is set up for.
Source: none: infrastructure
Kind: D -/
structure Layout (W C : Type) where
  /-- The address a socket is bound to. -/
  address : W ⊕ C → SockaddrIn
  /-- No two sockets are bound to one endpoint. -/
  distinct : Function.Injective fun i => endpoint (address i)
  /-- The worker of a client connection. -/
  server : C → W
  /-- Its entry of `server_sockaddrs`; the padding is never set. -/
  serverSockaddrs : C → SockaddrIn
  reaches : ∀ c, endpoint (serverSockaddrs c) = endpoint (address (.inl (server c)))

/-! ## The system -/

section system

variable (W C : Type)

/-- The state of a node: a connection of a worker, or a client with its connection.
Source: none: infrastructure
Kind: D -/
def NodeState : W ⊕ C → Type
  | .inl _ => Conn (MessageQueue Tagged) Unit
  | .inr _ => ClientNode (MessageQueue Tagged)

/-- The steps of a node.
Source: none: infrastructure
Kind: D -/
def NodeLabel : W ⊕ C → Type
  | .inl _ => Label WorkerEnv
  | .inr _ => ClientLabel

end system

section system

variable {W C : Type}

/-- The state of a worker.
Source: none: infrastructure
Kind: D -/
def worker (s : (i : W ⊕ C) → NodeState W C i) (w : W) : Conn (MessageQueue Tagged) Unit :=
  s (.inl w)

/-- The state of a client connection.
Source: none: infrastructure
Kind: D -/
def client (s : (i : W ⊕ C) → NodeState W C i) (c : C) : ClientNode (MessageQueue Tagged) :=
  s (.inr c)

/-- A step of a worker.
Source: none: infrastructure
Kind: D -/
def workerLabel (w : W) (l : Label WorkerEnv) : Σ i, NodeLabel W C i := ⟨.inl w, l⟩

/-- A step of a client connection.
Source: none: infrastructure
Kind: D -/
def clientLabel (c : C) (l : ClientLabel) : Σ i, NodeLabel W C i := ⟨.inr c, l⟩

/-- The datagram that `recvfrom` delivers in a step.
Source: `socket_udp.c`, `udp_socket_receive_message`
Kind: D -/
def received {ε : Type} : Label ε → Option Packet
  | .recvfrom packet => some packet
  | _ => none

/-- A worker: its three loops.
Source: `server_worker.c`, `server_worker_update`; `net_connection.c`, the two thread functions
Kind: D -/
def workerComponent :
    Component (Conn (MessageQueue Tagged) Unit) (Label WorkerEnv) Sent Packet where
  step := step ringOps workerHandler
  outbox := Conn.sent
  inbox := received

/-- A client connection: its two threads, the main thread and the printing thread.
Source: `client.c`, `client_send_pid_message`, `print_received_messages`
Kind: D -/
def clientComponent (server : SockaddrIn) :
    Component (ClientNode (MessageQueue Tagged)) ClientLabel Sent Packet where
  step := clientNodeStep ringOps server
  outbox := fun s => s.conn.sent
  inbox
    | .thread label => received label
    | _ => none

/-- The component at a node; a client sends to the server of its layout.
Source: none: infrastructure
Kind: D -/
def node (layout : Layout W C) :
    (i : W ⊕ C) → Component (NodeState W C i) (NodeLabel W C i) Sent Packet
  | .inl _ => workerComponent
  | .inr c => clientComponent (layout.serverSockaddrs c)

/-- The workers, the client connections and the network: what is sent to an endpoint can arrive at
the socket bound to it, with the sender's address as its source.
Source: none: infrastructure
Kind: D -/
def deployment (layout : Layout W C) :
    Assembly (W ⊕ C) (NodeState W C) (NodeLabel W C) Sent Packet where
  component := node layout
  carries j x i packet := endpoint x.dest = endpoint (layout.address i) ∧
    packet = ⟨x.bytes, layout.address j⟩

/-- Whether the network may carry a datagram to a node can be evaluated.
Source: none: infrastructure
Kind: D -/
instance (layout : Layout W C) (j : W ⊕ C) (x : Sent) (i : W ⊕ C) (packet : Packet) :
    Decidable ((deployment layout).carries j x i packet) :=
  inferInstanceAs (Decidable (endpoint x.dest = endpoint (layout.address i) ∧
    packet = ⟨x.bytes, layout.address j⟩))

/-- A node whose threads have just been started: its queues are those that `message_queue_create`
returned.
Source: `server_worker.c`, `server_worker_create`; `client.c`, `client_create_context`
Kind: D -/
def Started : (i : W ⊕ C) → NodeState W C i → Prop
  | .inl _, s => ∃ (socket : UdpSocket) (calls₁ calls₂ : CreateCalls) (q₁ q₂ : MessageQueue Tagged),
      messageQueueCreate calls₁ serverMessageQueueSize = some q₁ ∧
      messageQueueCreate calls₂ serverMessageQueueSize = some q₂ ∧ s = Conn.init socket q₁ q₂ ()
  | .inr _, s => ∃ (socket : UdpSocket) (calls₁ calls₂ : CreateCalls) (q₁ q₂ : MessageQueue Tagged),
      messageQueueCreate calls₁ clientQueueCapacity = some q₁ ∧
      messageQueueCreate calls₂ clientQueueCapacity = some q₂ ∧
      s = ClientNode.mk (Conn.init socket q₁ q₂ ()) 0 []

/-- The runs of the deployed system, whatever the calls of the system answer.
Source: none: infrastructure
Kind: D -/
abbrev SystemRun [DecidableEq W] [DecidableEq C] (layout : Layout W C) :=
  Run (deployment layout).step (deployment layout).Delivered

/-! ## Histories -/

/-- What `recvfrom` has delivered to a node.
Source: none: infrastructure
Kind: D -/
def delivered : (i : W ⊕ C) → NodeState W C i → List Packet
  | .inl _, s => (Conn.receipts s).map Receipt.packet
  | .inr _, s => (ClientNode.conn s).receipts.map Receipt.packet

/-- What the worker function of a worker gets from the system in a step, if the step is a call of
it.
Source: none: infrastructure
Kind: D -/
def callIn [DecidableEq W] (w : W) : (Σ i, NodeLabel W C i) → Option WorkerEnv
  | ⟨.inl w', .handle env⟩ => if w' = w then some env else none
  | _ => none

/-- What the worker function of a worker got from the system, call by call.
Source: none: infrastructure
Kind: D -/
def callsOf [DecidableEq W] (w : W) (ls : List (Σ i, NodeLabel W C i)) : List WorkerEnv :=
  ls.filterMap (callIn w)

/-- The call number `k` of the worker function of a worker in a run: what it got from the system,
and the message before and after it.
Source: `server_worker.c`, `server_worker_on_message`
Kind: D -/
structure CallOf [DecidableEq W] (ls : List (Σ i, NodeLabel W C i))
    (s : (i : W ⊕ C) → NodeState W C i) (w : W) (k : ℕ) (env : WorkerEnv) (call : Handled) :
    Prop where
  env_eq : (callsOf w ls)[k]? = some env
  logged : (worker s w).handledLog[k]? = some call
  result : workerHandler env () call.before = some (call.after, ())

end system

section histories

variable {Q σ ε : Type} {ops : QueueOps Q} {handler : Handler ε σ} {s s' : Conn Q σ} {l : Label ε}

/-- A connection does not forget what it has sent.
Source: `net_connection.c`, the two thread functions; `client.c`, `server_worker.c`
Kind: L -/
theorem sent_subset_of_moved (hm : Moved ops handler s l s') : s.sent ⊆ s'.sent := by
  cases hm with
  | sendto pc send => exact List.subset_append_left _ _
  | _ => exact List.Subset.refl _

/-- A connection takes in what `recvfrom` delivers.
Source: `net_connection.c`, the two thread functions; `client.c`, `server_worker.c`
Kind: L -/
theorem receipts_of_moved (hm : Moved ops handler s l s') :
    ∀ packet ∈ s'.receipts.map Receipt.packet,
      packet ∈ s.receipts.map Receipt.packet ∨ packet ∈ received l := by
  cases hm with
  | @recvfrom packet pc =>
      intro packet' hpacket
      rw [List.map_append, List.mem_append] at hpacket
      rcases hpacket with hold | hnew
      · exact .inl hold
      · rw [List.map_singleton, List.mem_singleton] at hnew
        exact .inr (by rw [hnew]; rfl)
  | _ => exact fun _ hpacket => .inl hpacket

/-- A step is a call of the worker function, which is logged, or leaves the log as it is.
Source: `net_connection.c`, the two thread functions; `client.c`, `server_worker.c`
Kind: L -/
theorem handledLog_of_moved (hm : Moved ops handler s l s') :
    (∃ env call store, l = .handle env ∧
        handler env s.store call.before = some (call.after, store) ∧
        s'.handledLog = s.handledLog ++ [call]) ∨
      (∀ env, l ≠ .handle env) ∧ s'.handledLog = s.handledLog := by
  cases hm with
  | @handle env left t m store pc call =>
      exact .inl ⟨env, ⟨t.id, t.body, m⟩, store, rfl, call, rfl⟩
  | _ => exact .inr ⟨by simp, rfl⟩

end histories

section histories

variable {W C : Type}

/-- The nodes keep a record of what they send and take in.
Source: `net_connection.c`, the two thread functions; `client.c`, `server_worker.c`
Kind: L -/
theorem recorded_deployment (layout : Layout W C) : (deployment layout).Recorded delivered where
  outbox_subset := by
    intro i s l s' hs
    cases i with
    | inl w => exact sent_subset_of_moved (moved_of_step hs)
    | inr c =>
        cases clientMoved_of_nodeStep hs with
        | thread moved => exact sent_subset_of_moved moved
        | _ => exact List.Subset.refl _
  taken_cases := by
    intro i s l s' hs
    cases i with
    | inl w => exact receipts_of_moved (moved_of_step hs)
    | inr c =>
        cases clientMoved_of_nodeStep hs with
        | thread moved => exact receipts_of_moved moved
        | _ => exact fun _ hpacket => .inl hpacket

/-- A node that was just started has taken in nothing.
Source: `net_connection.c`, the two thread functions; `client.c`, `server_worker.c`
Kind: L -/
theorem delivered_of_started {i : W ⊕ C} {s : NodeState W C i} (h : Started i s) :
    delivered i s = [] := by
  cases i with
  | inl w =>
      obtain ⟨socket, calls₁, calls₂, q₁, q₂, -, -, rfl⟩ := h
      rfl
  | inr c =>
      obtain ⟨socket, calls₁, calls₂, q₁, q₂, -, -, rfl⟩ := h
      rfl

variable [DecidableEq W] {s₀ s : (i : W ⊕ C) → NodeState W C i}
  {ls : List (Σ i, NodeLabel W C i)}

/-- A call of the run is one of its steps.
Source: `net_connection.c`, the two thread functions; `client.c`, `server_worker.c`
Kind: L -/
theorem CallOf.mem_labels {w : W} {k : ℕ} {env : WorkerEnv} {call : Handled}
    (h : CallOf ls s w k env call) : workerLabel w (.handle env) ∈ ls := by
  obtain ⟨⟨i, l⟩, hl, heq⟩ := List.mem_filterMap.mp (List.mem_of_getElem? h.env_eq)
  cases i with
  | inr c => cases heq
  | inl w' =>
      cases l with
      | handle env' =>
          simp only [callIn, Option.ite_none_right_eq_some, Option.some.injEq] at heq
          obtain ⟨rfl, rfl⟩ := heq
          exact hl
      | _ => cases heq

variable [DecidableEq C] {layout : Layout W C}

/-- A step of the system is a call of the worker's function, which is logged, or leaves the log of
the worker as it is.
Source: `net_connection.c`, the two thread functions; `client.c`, `server_worker.c`
Kind: P -/
theorem handledLog_of_step {s' : (i : W ⊕ C) → NodeState W C i} {l : Σ i, NodeLabel W C i} (w : W)
    (hs : (deployment layout).step s l = some s') :
    (∃ env call, callIn w l = some env ∧
        workerHandler env () call.before = some (call.after, ()) ∧
        (worker s' w).handledLog = (worker s w).handledLog ++ [call]) ∨
      callIn w l = none ∧ (worker s' w).handledLog = (worker s w).handledLog := by
  obtain ⟨t, ht, rfl⟩ := (deployment layout).step_eq_some hs
  obtain ⟨i, l⟩ := l
  cases i with
  | inr c =>
      have hsame : worker (Function.update s (.inr c) t) w = worker s w :=
        Function.update_of_ne (by simp) _ _
      exact .inr ⟨rfl, by rw [hsame]⟩
  | inl w' =>
      by_cases hw : w' = w
      · subst hw
        have hself : worker (Function.update s (.inl w') t) w' = t := Function.update_self _ _ _
        rw [hself]
        rcases handledLog_of_moved (moved_of_step ht) with
          ⟨env, call, store, rfl, hcall, hlog⟩ | ⟨hother, hlog⟩
        · exact .inl ⟨env, call, if_pos rfl, hcall, hlog⟩
        · refine .inr ⟨?_, hlog⟩
          cases l with
          | handle env => exact absurd rfl (hother env)
          | _ => rfl
      · have hsame : worker (Function.update s (.inl w') t) w = worker s w :=
          Function.update_of_ne (by simpa using Ne.symm hw) _ _
        refine .inr ⟨?_, by rw [hsame]⟩
        cases l with
        | handle env => exact if_neg hw
        | _ => rfl

/-- **The calls of a worker function are those in its log**, one for one and in order.
Source: `net_connection.c`, the two thread functions; `client.c`, `server_worker.c`
Kind: P -/
theorem callsOf_handledLog (h₀ : ∀ i, Started i (s₀ i)) (h : SystemRun layout s₀ ls s) (w : W) :
    List.Forall₂ (fun env call => workerHandler env () call.before = some (call.after, ()))
      (callsOf w ls) (worker s w).handledLog := by
  induction h with
  | nil =>
      obtain ⟨socket, calls₁, calls₂, q₁, q₂, -, -, hinit⟩ := h₀ (.inl w)
      rw [worker, hinit]
      exact .nil
  | @snoc ls s l s' _ _ hs ih =>
      have hsplit : callsOf w (ls ++ [l]) = callsOf w ls ++ [l].filterMap (callIn w) :=
        List.filterMap_append
      rw [hsplit]
      rcases handledLog_of_step w hs with ⟨env, call, hl, hcall, hlog⟩ | ⟨hl, hlog⟩
      · rw [hlog, List.filterMap_cons_some hl]
        exact List.rel_append ih (.cons hcall .nil)
      · rw [hlog, List.filterMap_cons_none hl, List.filterMap_nil, List.append_nil]
        exact ih

/-- Every entry of the log is a call.
Source: `net_connection.c`, the two thread functions; `client.c`, `server_worker.c`
Kind: L -/
theorem exists_callOf (h₀ : ∀ i, Started i (s₀ i)) (h : SystemRun layout s₀ ls s) {w : W}
    {call : Handled} (hcall : call ∈ (worker s w).handledLog) :
    ∃ k env, CallOf ls s w k env call := by
  have hall := callsOf_handledLog h₀ h w
  obtain ⟨k, hk⟩ := List.mem_iff_getElem?.mp hcall
  obtain ⟨hlt, hget⟩ := List.getElem?_eq_some_iff.mp hk
  have hlt' : k < (callsOf w ls).length := hall.length_eq ▸ hlt
  refine ⟨k, (callsOf w ls)[k], List.getElem?_eq_getElem hlt', hk, ?_⟩
  have hresult := List.forall₂_iff_get.mp hall
  have hrow := hresult.2 k hlt' hlt
  rw [← hget]
  exact hrow

end histories

/-! ## What a worker keeps -/

/-- What a worker keeps: its queues represent queues, the messages in its hands come from datagrams
that meet `A`, go to addresses that meet `P`, and its replies are results of the worker function.
Source: none: infrastructure
Kind: D -/
structure WorkerInv (A : Packet → Prop) (P : SockaddrIn → Prop)
    (s : Conn (MessageQueue Tagged) Unit) : Prop where
  valid : s.Valid
  link : s.fifo.Link A P
  traced : s.fifo.Traced workerHandler

/-- A call of the worker function of a worker that only gets requests: whatever it got from the
system, its result answers the request it was called with.
Source: `net_connection.c`, the two thread functions; `client.c`, `server_worker.c`
Kind: P -/
theorem WorkerInv.handled {A : Packet → Prop} {P : SockaddrIn → Prop}
    {s : Conn (MessageQueue Tagged) Unit} {Req : BitVec 32 → Prop}
    (hA : ∀ packet, A packet → ∃ server pid, Req pid ∧ IsRequest server pid packet.bytes)
    (h : WorkerInv A P s) {x : Handled} (hx : x ∈ s.handledLog) :
    ∃ pid, Req pid ∧ x.before.header.type = MessageType.pid.code ∧
      messagePid x.before = some pid ∧
      ∀ env, workerHandler env () x.before = some (x.after, ()) → Answers env.1 pid x.after := by
  obtain ⟨horigin, -⟩ := h.traced.log x hx
  obtain ⟨packet, buffer, owner, fresh, hpacket, hbuilt⟩ := h.link.built_of_origin horigin
  obtain ⟨server, pid, hpid, hrequest⟩ := hA packet hpacket
  obtain ⟨htype, hmessagePid, hpayload, hdata⟩ := decoded_request hrequest hbuilt
  refine ⟨pid, hpid, htype, hmessagePid, fun env hcall => ?_⟩
  exact answers_of_workerHandler htype hmessagePid hpayload hdata hcall

/-! ## The contract -/

section contract

variable {W C : Type} (layout : Layout W C) (Asked : C → BitVec 32 → Prop)

/-- The addresses that a node has to do with: a worker with those of its clients, a client
connection with that of its worker.
Source: none: infrastructure
Kind: D -/
def Peer : W ⊕ C → SockaddrIn → Prop
  | .inl w, a => ∃ c, layout.server c = w ∧ endpoint a = endpoint (layout.address (.inr c))
  | .inr c, a => endpoint a = endpoint (layout.address (.inl (layout.server c)))

/-- A pid that one of the client connections of a worker has asked for.
Source: none: infrastructure
Kind: D -/
def AskedOf (w : W) (pid : BitVec 32) : Prop := ∃ c, layout.server c = w ∧ Asked c pid

/-- What a node assumes of a datagram that arrives: it comes from a peer, and a worker gets requests
of its clients.
Source: none: infrastructure
Kind: D -/
def Arriving : W ⊕ C → Packet → Prop
  | .inl w, packet => Peer layout (.inl w) packet.source ∧
      ∃ server pid, AskedOf layout Asked w pid ∧ IsRequest server pid packet.bytes
  | .inr c, packet => Peer layout (.inr c) packet.source

/-- What a node guarantees of a datagram that it sends: it goes to a peer, and a client connection
only sends requests.
Source: none: infrastructure
Kind: D -/
def Sending : W ⊕ C → Sent → Prop
  | .inl w, x => Peer layout (.inl w) x.dest
  | .inr c, x => Peer layout (.inr c) x.dest ∧
      ∃ pid, Asked c pid ∧ IsRequest (layout.serverSockaddrs c) pid x.bytes

/-- What a node keeps.
Source: none: infrastructure
Kind: D -/
def NodeInv : (i : W ⊕ C) → NodeState W C i → Prop
  | .inl w, s => WorkerInv (Arriving layout Asked (.inl w)) (Peer layout (.inl w)) s
  | .inr c, s => Conn.Valid (ClientNode.conn s) ∧
      ClientNode.Inv (Arriving layout Asked (.inr c)) (Peer layout (.inr c))
        (layout.serverSockaddrs c) (Asked c) (ClientNode.fifo s)

variable {layout Asked}

/-- The source of what arrives is a peer.
Source: `net_connection.c`, the two thread functions; `client.c`, `server_worker.c`
Kind: L -/
theorem Arriving.source {i : W ⊕ C} {packet : Packet} (h : Arriving layout Asked i packet) :
    Peer layout i packet.source := by
  cases i with
  | inl w => exact h.1
  | inr c => exact h

/-- What a client connection has sent.
Source: `net_connection.c`, the two thread functions; `client.c`, `server_worker.c`
Kind: L -/
theorem sending_client {c : C} {s : ClientNode (MessageQueue Tagged)}
    (h : s.fifo.Inv (Arriving layout Asked (.inr c)) (Peer layout (.inr c))
      (layout.serverSockaddrs c) (Asked c)) {x : Sent} (hx : x ∈ s.conn.sent) :
    Sending layout Asked (.inr c) x := by
  obtain ⟨hdest, -, hbytes⟩ := h.link.sent x hx
  obtain ⟨pid, hpid, hbody⟩ :=
    h.outgoing x.message (List.mem_append_left _ (List.mem_map_of_mem hx))
  rw [hbody] at hbytes
  exact ⟨hdest, pid, hpid, hbytes⟩

/-- **What arrives was meant for the node it arrives at.** Every datagram goes to a peer of its
sender, endpoints are distinct, and being a peer is mutual.
Source: `net_connection.c`, the two thread functions; `client.c`, `server_worker.c`
Kind: P -/
theorem arriving_of_sending {j i : W ⊕ C} {x : Sent} {packet : Packet}
    (h : Sending layout Asked j x) (hcarries : (deployment layout).carries j x i packet) :
    Arriving layout Asked i packet := by
  obtain ⟨hdest, rfl⟩ := hcarries
  cases j with
  | inl w =>
      obtain ⟨c, rfl, hpeer⟩ := h
      obtain rfl : i = .inr c := layout.distinct (hdest.symm.trans hpeer)
      exact rfl
  | inr c =>
      obtain ⟨hpeer, pid, hpid, hrequest⟩ := h
      obtain rfl : i = .inl (layout.server c) := layout.distinct (hdest.symm.trans hpeer)
      exact ⟨⟨c, rfl, rfl⟩, layout.serverSockaddrs c, pid, ⟨c, rfl, hpid⟩, hrequest⟩

/-- The step of a node may ask for a pid only if it is among those asked for.
Source: none: infrastructure
Kind: D -/
def Permitted (Asked : C → BitVec 32 → Prop) : (i : W ⊕ C) → NodeLabel W C i → Prop
  | .inl _, _ => True
  | .inr c, l => ∀ calls pid, l = ClientLabel.send calls pid → Asked c pid

/-- A worker keeps its invariant.
Source: `net_connection.c`, the two thread functions; `client.c`, `server_worker.c`
Kind: P -/
theorem WorkerInv.step {A : Packet → Prop} {P : SockaddrIn → Prop}
    (hsource : ∀ packet, A packet → P packet.source) {s s' : Conn (MessageQueue Tagged) Unit}
    {l : Label WorkerEnv} (h : WorkerInv A P s) (hA : ∀ packet ∈ received l, A packet)
    (hs : step ringOps workerHandler s l = some s') : WorkerInv A P s' := by
  obtain ⟨hm, hvalid⟩ := (moved_of_step hs).refines h.valid
  refine ⟨hvalid, ?_, h.traced.moved hm⟩
  apply h.link.moved ownerAddr_of_workerHandler hsource hm
  rintro packet rfl
  exact hA packet rfl

/-- **The contract of the deployed system.**
Source: none: infrastructure
Kind: D -/
def deploymentContract [DecidableEq W] [DecidableEq C] (layout : Layout W C)
    (Asked : C → BitVec 32 → Prop) : Contract (deployment layout) (Permitted Asked) where
  inv := NodeInv layout Asked
  assumption := Arriving layout Asked
  guarantee := Sending layout Asked
  sends := by
    intro i s h x hx
    cases i with
    | inl w => exact (h.link.sent x hx).1
    | inr c => exact sending_client h.2 hx
  arrives := fun _ _ _ _ h hcarries => arriving_of_sending h hcarries
  keeps := by
    intro i s l s' h hok hA hs
    cases i with
    | inl w => exact WorkerInv.step (fun _ hpacket => hpacket.source) h hA hs
    | inr c =>
        obtain ⟨hvalid, hinv⟩ := h
        obtain ⟨hm, hvalid'⟩ := (clientMoved_of_nodeStep hs).refines hvalid
        refine ⟨hvalid', hinv.moved (fun _ hpacket => hpacket.source) (layout.reaches c) hm ?_ hok⟩
        rintro packet rfl
        exact hA packet rfl

/-- A started node meets its invariant.
Source: `net_connection.c`, the two thread functions; `client.c`, `server_worker.c`
Kind: L -/
theorem nodeInv_of_started {i : W ⊕ C} {s : NodeState W C i} (h : Started i s) :
    NodeInv layout Asked i s := by
  have hcreated : ∀ {calls : CreateCalls} {c : ℤ} {q : MessageQueue Tagged}, c ≤ intMax →
      messageQueueCreate calls c = some q → q.Valid ∧ q.fifo = ⟨c.toNat, []⟩ := by
    intro calls c q hc hq
    obtain ⟨hcap, hrep⟩ := represents_of_messageQueueCreate hq hc
    exact ⟨hrep.valid, by rw [← hcap, ← hrep.fifo_eq]⟩
  cases i with
  | inl w =>
      obtain ⟨socket, calls₁, calls₂, q₁, q₂, hq₁, hq₂, rfl⟩ := h
      obtain ⟨hvalid₁, hfifo₁⟩ := hcreated (by decide) hq₁
      obtain ⟨hvalid₂, hfifo₂⟩ := hcreated (by decide) hq₂
      have hinit : (Conn.init socket q₁ q₂ ()).fifo = Conn.init socket ⟨_, []⟩ ⟨_, []⟩ () :=
        congrArg₂ (fun f g => Conn.init socket f g ()) hfifo₁ hfifo₂
      refine ⟨⟨hvalid₁, hvalid₂⟩, ?_, ?_⟩
      · rw [hinit]
        exact .init
      · rw [hinit]
        exact .init
  | inr c =>
      obtain ⟨socket, calls₁, calls₂, q₁, q₂, hq₁, hq₂, rfl⟩ := h
      obtain ⟨hvalid₁, hfifo₁⟩ := hcreated (by decide) hq₁
      obtain ⟨hvalid₂, hfifo₂⟩ := hcreated (by decide) hq₂
      have hinit : (ClientNode.mk (Conn.init socket q₁ q₂ ()) 0 []).fifo =
          ClientNode.mk (Conn.init socket ⟨_, []⟩ ⟨_, []⟩ ()) 0 [] :=
        congrArg₂ (fun f g => ClientNode.mk (Conn.init socket f g ()) 0 []) hfifo₁ hfifo₂
      refine ⟨⟨hvalid₁, hvalid₂⟩, ?_⟩
      rw [hinit]
      exact .init

/-- The pids that a run has a client connection ask for.
Source: none: infrastructure
Kind: D -/
def AskedIn (ls : List (Σ i, NodeLabel W C i)) (c : C) (pid : BitVec 32) : Prop :=
  ∃ calls, clientLabel c (.send calls pid) ∈ ls

/-- **Every node keeps its invariant in every run**, with the pids of that run.
Source: `net_connection.c`, the two thread functions; `client.c`, `server_worker.c`
Kind: P -/
theorem nodeInv_of_run [DecidableEq W] [DecidableEq C] {layout : Layout W C}
    {s₀ s : (i : W ⊕ C) → NodeState W C i} {ls : List (Σ i, NodeLabel W C i)}
    (h₀ : ∀ i, Started i (s₀ i)) (h : SystemRun layout s₀ ls s) (i : W ⊕ C) :
    NodeInv layout (AskedIn ls) i (s i) := by
  refine (deploymentContract layout (AskedIn ls)).holds
    (fun i => nodeInv_of_started (h₀ i)) (h.mem_labels.mono ?_) i
  rintro s ⟨i, l⟩ ⟨hdelivered, hmem⟩
  refine ⟨hdelivered, ?_⟩
  cases i with
  | inl w => exact trivial
  | inr c =>
      rintro calls pid rfl
      exact ⟨calls, hmem⟩

end contract

end CpuMonitor.Cluster
