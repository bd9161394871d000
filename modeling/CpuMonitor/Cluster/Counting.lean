import CpuMonitor.Cluster.Integrity

/-!
# At most one reply for a request

`Cluster.Integrity` says that everything a client prints is an answer. Here it is counted: if the
network has duplicated nothing, the clients of a worker have together printed at most as many
replies as they have made requests, however the threads interleave. A reply may still go to another
client of the same worker than the one that asked, so no such bound holds for each client alone.

* **In a node** `Conn.Counted`, `ClientNode.Counted`: a worker has sent no more than it has handled
  and handled no more than it has received; a client connection has sent no more than it was asked
  to and printed no more than it has received. Kept by every step, whatever the `pthread_*` calls
  answer.
* **Between nodes** `Assembly.Once` at `delivered`: who gets a datagram is a peer of the sender, so
  the workers and their clients can be counted against each other.
* `replies_le_requests` — the chain of these inequalities.
-/

/-! ## Counting in a node -/

namespace CpuMonitor.Server

open CpuMonitor.Lib CpuMonitor.Network

section counted

variable {σ ε : Type} {handler : Handler ε σ} {s s' : Conn (Fifo Tagged) σ}

/-- What a worker has sent, handled and received.
Source: none: infrastructure
Kind: D -/
structure Conn.Counted (s : Conn (Fifo Tagged) σ) : Prop where
  replies : s.replies.length ≤ s.handledLog.length
  handled : s.handledLog.length + s.requests.length + s.recv.ids.length ≤ s.receipts.length

/-- **Every step keeps the account of a worker.**
Source: `net_connection.c`, the two thread functions; `server_worker.c`, `server_worker_update`
Kind: P -/
theorem Conn.Counted.flowed (h : s.Counted) (hf : Flowed handler s s') : s'.Counted := by
  obtain ⟨hreplies, hhandled⟩ := h
  cases hf with
  | keep requests replies recv log receipts =>
      have hrequests' := requests.length_le
      have hreplies' := replies.length_le
      have hrecv' := recv.length_le
      constructor
      · rw [log]
        omega
      · rw [log, receipts]
        omega
  | receive r pc recv receipts requests replies log =>
      rw [pc] at hhandled
      constructor
      · rw [replies, log]
        exact hreplies
      · rw [log, requests, recv, receipts, List.length_append, List.length_singleton,
          List.length_singleton]
        rw [List.length_nil] at hhandled
        omega
  | enqueue t pc recv requests replies log receipts =>
      have hrequests' := requests.length_le
      rw [List.length_append, List.length_singleton] at hrequests'
      rw [pc, RecvPc.ids, List.length_singleton] at hhandled
      constructor
      · rw [replies, log]
        exact hreplies
      · rw [log, recv, receipts, RecvPc.ids, List.length_nil]
        omega
  | handle env t m store call requests replies log recv receipts =>
      rw [requests, List.length_cons] at hhandled
      constructor
      · rw [replies, log, List.length_append, List.length_append, List.length_singleton,
          List.length_singleton]
        omega
      · rw [log, recv, receipts, List.length_append, List.length_singleton]
        omega

/-- A connection has sent at most as many replies as its handler has made.
Source: `net_connection.c`, the two thread functions; `server_worker.c`, `server_worker_update`
Kind: L -/
theorem Conn.Counted.sent_le (h : s.Counted) : s.sent.length ≤ s.handledLog.length := by
  have hreplies := h.replies
  rw [Conn.replies, List.length_append, List.length_map] at hreplies
  exact (Nat.le_add_right _ _).trans hreplies

/-- Its handler has been called at most once for each datagram received.
Source: `net_connection.c`, the two thread functions; `server_worker.c`, `server_worker_update`
Kind: L -/
theorem Conn.Counted.handled_le (h : s.Counted) :
    s.handledLog.length ≤ s.receipts.length := by
  have hhandled := h.handled
  omega

end counted

end CpuMonitor.Server

namespace CpuMonitor.Client

open CpuMonitor.Lib CpuMonitor.Network CpuMonitor.Server

section counted

variable {s s' : ClientNode (Fifo Tagged)}

/-- What a client connection has sent, was asked for, printed and received.
Source: none: infrastructure
Kind: D -/
structure ClientNode.Counted (s : ClientNode (Fifo Tagged)) : Prop where
  replies : s.conn.replies.length ≤ s.requests
  printed : s.printed.length + s.conn.requests.length + s.conn.recv.ids.length ≤
    s.conn.receipts.length

/-- **Every step keeps the account of a client connection.**
Source: `net_connection.c`, the two thread functions; `server_worker.c`, `server_worker_update`
Kind: P -/
theorem ClientNode.Counted.moved {server : SockaddrIn} {l : ClientLabel} (h : s.Counted)
    (hm : ClientMoved fifoOps server s l s') : s'.Counted := by
  obtain ⟨hreplies, hprinted⟩ := h
  cases hm with
  | thread moved =>
      cases moved.flowed with
      | keep requests replies recv log receipts =>
          have hrequests' := requests.length_le
          have hreplies' := replies.length_le
          have hrecv' := recv.length_le
          refine ⟨hreplies'.trans hreplies, ?_⟩
          rw [receipts]
          simp only
          omega
      | receive r pc recv receipts requests replies log =>
          refine ⟨by rw [replies]; exact hreplies, ?_⟩
          rw [pc, List.length_nil] at hprinted
          rw [requests, recv, receipts, List.length_append, List.length_singleton,
            List.length_singleton]
          simp only
          omega
      | enqueue t pc recv requests replies log receipts =>
          have hrequests' := requests.length_le
          rw [List.length_append, List.length_singleton] at hrequests'
          rw [pc, RecvPc.ids, List.length_singleton] at hprinted
          refine ⟨by rw [replies]; exact hreplies, ?_⟩
          rw [recv, receipts, RecvPc.ids, List.length_nil]
          simp only
          omega
      | handle env => exact env.elim
  | sendFailed => exact ⟨hreplies, hprinted⟩
  | send enqueue =>
      have hlength := (Fifo.sublist_of_enqueue (Option.some.inj enqueue)).length_le
      refine ⟨?_, hprinted⟩
      simp only [Conn.replies, Conn.waiting, List.length_append, List.length_singleton]
        at hreplies hlength ⊢
      omega
  | printEmpty dequeue =>
      have hlength := (Fifo.items_of_dequeue_none (Option.some.inj dequeue)).1.length_le
      refine ⟨hreplies, ?_⟩
      simp only [Conn.requests, List.length_append] at hprinted ⊢
      omega
  | print dequeue printed =>
      obtain ⟨hitems, -⟩ := Fifo.items_of_dequeue_some (Option.some.inj dequeue)
      refine ⟨hreplies, ?_⟩
      simp only [Conn.requests, List.length_append, hitems, List.length_cons, List.length_nil]
        at hprinted ⊢
      omega

/-- A client has sent at most as many datagrams as it was asked to.
Source: `net_connection.c`, the two thread functions; `server_worker.c`, `server_worker_update`
Kind: L -/
theorem ClientNode.Counted.sent_le (h : s.Counted) : s.conn.sent.length ≤ s.requests := by
  have hreplies := h.replies
  rw [Conn.replies, List.length_append, List.length_map] at hreplies
  exact (Nat.le_add_right _ _).trans hreplies

/-- It has printed at most as many replies as it has received.
Source: `net_connection.c`, the two thread functions; `server_worker.c`, `server_worker_update`
Kind: L -/
theorem ClientNode.Counted.printed_le (h : s.Counted) :
    s.printed.length ≤ s.conn.receipts.length := by
  have hprinted := h.printed
  omega

end counted

end CpuMonitor.Client

/-! ## Counting in the system -/

namespace CpuMonitor.Cluster

open CpuMonitor.Lib CpuMonitor.Network CpuMonitor.Server CpuMonitor.Client

section system

variable {W C : Type}

/-- The account of a node.
Source: none: infrastructure
Kind: D -/
def NodeCounted : (i : W ⊕ C) → NodeState W C i → Prop
  | .inl _, s => Conn.Valid s ∧ (Conn.fifo s).Counted
  | .inr _, s => Conn.Valid (ClientNode.conn s) ∧ (ClientNode.fifo s).Counted

/-- The accounts need no assumption on what arrives.
Source: none: infrastructure
Kind: D -/
def countingContract [DecidableEq W] [DecidableEq C] (layout : Layout W C) :
    Contract (deployment layout) (fun _ _ => True) where
  inv := NodeCounted
  assumption := fun _ _ => True
  guarantee := fun _ _ => True
  sends := fun _ _ _ _ _ => trivial
  arrives := fun _ _ _ _ _ _ => trivial
  keeps := by
    intro i s l s' h _ _ hs
    cases i with
    | inl w =>
        obtain ⟨hm, hvalid⟩ := (moved_of_step hs).refines h.1
        exact ⟨hvalid, h.2.flowed hm.flowed⟩
    | inr c =>
        obtain ⟨hm, hvalid⟩ := (clientMoved_of_nodeStep hs).refines h.1
        exact ⟨hvalid, h.2.moved hm⟩

/-- A started node has done nothing yet.
Source: `net_connection.c`, the two thread functions; `server_worker.c`, `server_worker_update`
Kind: L -/
theorem nodeCounted_of_started {i : W ⊕ C} {s : NodeState W C i} (h : Started i s) :
    NodeCounted i s := by
  cases i with
  | inl w =>
      obtain ⟨socket, calls₁, calls₂, q₁, q₂, hq₁, hq₂, rfl⟩ := h
      obtain ⟨-, hrep₁⟩ := represents_of_messageQueueCreate hq₁ (by decide)
      obtain ⟨-, hrep₂⟩ := represents_of_messageQueueCreate hq₂ (by decide)
      refine ⟨⟨hrep₁.valid, hrep₂.valid⟩, ?_, ?_⟩
      · simp [Conn.replies, Conn.waiting, Conn.fifo, Conn.init, MessageQueue.fifo, SendPc.hand,
          WorkPc.answered, hrep₂.contents_eq]
      · simp [Conn.requests, Conn.fifo, Conn.init, MessageQueue.fifo, RecvPc.ids,
          WorkPc.unhandled, hrep₁.contents_eq]
  | inr c =>
      obtain ⟨socket, calls₁, calls₂, q₁, q₂, hq₁, hq₂, rfl⟩ := h
      obtain ⟨-, hrep₁⟩ := represents_of_messageQueueCreate hq₁ (by decide)
      obtain ⟨-, hrep₂⟩ := represents_of_messageQueueCreate hq₂ (by decide)
      refine ⟨⟨hrep₁.valid, hrep₂.valid⟩, ?_, ?_⟩
      · simp [Conn.replies, Conn.waiting, ClientNode.fifo, Conn.fifo, Conn.init,
          MessageQueue.fifo, SendPc.hand, WorkPc.answered, hrep₂.contents_eq]
      · simp [Conn.requests, ClientNode.fifo, Conn.fifo, Conn.init, MessageQueue.fifo, RecvPc.ids,
          WorkPc.unhandled, hrep₁.contents_eq]

variable [DecidableEq W] [DecidableEq C] {layout : Layout W C}
  {s₀ s : (i : W ⊕ C) → NodeState W C i} {ls : List (Σ i, NodeLabel W C i)}

/-- Every node keeps its counts along a run of the system.
Source: `net_connection.c`, the two thread functions; `server_worker.c`, `server_worker_update`
Kind: L -/
theorem nodeCounted_of_run (h₀ : ∀ i, Started i (s₀ i)) (h : SystemRun layout s₀ ls s)
    (i : W ⊕ C) : NodeCounted i (s i) :=
  (countingContract layout).holds (fun i => nodeCounted_of_started (h₀ i))
    (h.mono fun _ _ hok => ⟨hok, trivial⟩) i

/-- What a node has got comes from its peers.
Source: `net_connection.c`, the two thread functions; `server_worker.c`, `server_worker_update`
Kind: L -/
theorem peer_of_delivered (h₀ : ∀ i, Started i (s₀ i)) (h : SystemRun layout s₀ ls s) {i : W ⊕ C}
    {packet : Packet} (hpacket : packet ∈ delivered i (s i)) : Peer layout i packet.source := by
  have hinv := nodeInv_of_run h₀ h i
  cases i with
  | inl w =>
      obtain ⟨r, hr, rfl⟩ := List.mem_map.mp hpacket
      exact (hinv.link.receipts r hr).1.source
  | inr c =>
      obtain ⟨r, hr, rfl⟩ := List.mem_map.mp hpacket
      exact (hinv.2.link.receipts r hr).1.source

variable [Fintype C]

/-- The client connections of a worker, as nodes.
Source: none: infrastructure
Kind: D -/
def clientsOf (layout : Layout W C) (w : W) : Finset (W ⊕ C) :=
  (Finset.univ.filter fun c => layout.server c = w).map ⟨Sum.inr, Sum.inr_injective⟩

omit [DecidableEq C] in
/-- A client is among the clients of its server.
Source: none: infrastructure
Kind: L -/
theorem mem_clientsOf {w : W} {c : C} (h : layout.server c = w) :
    .inr c ∈ clientsOf layout w :=
  Finset.mem_map.mpr ⟨c, Finset.mem_filter.mpr ⟨Finset.mem_univ c, h⟩, rfl⟩

/-- **At most one reply for a request.** In every run in which the network has duplicated nothing,
for every worker: its client connections have together printed at most as many replies as it has
handled messages, and it has handled at most as many as they have made requests.
Source: `client.c`, `client_send_pid_message`, `print_received_messages`; `net_connection.c`, the
two thread functions; `server_worker.c`, `server_worker_update`
Kind: P
Hyps: no two sockets are bound to one endpoint (`Layout`) -/
theorem replies_le_requests (h₀ : ∀ i, Started i (s₀ i)) (h : SystemRun layout s₀ ls s)
    (honce : (deployment layout).Once delivered s) (w : W) :
    ∑ c with layout.server c = w, (client s c).printed.length ≤ (worker s w).handledLog.length ∧
      (worker s w).handledLog.length ≤ ∑ c with layout.server c = w, (client s c).requests := by
  obtain ⟨-, hworker⟩ := nodeCounted_of_run h₀ h (.inl w)
  have hclient : ∀ c, (client s c).fifo.Counted :=
    fun c => (nodeCounted_of_run h₀ h (.inr c)).2
  constructor
  · calc ∑ c with layout.server c = w, (client s c).printed.length
        ≤ ∑ c with layout.server c = w, (delivered (.inr c) (s (.inr c))).length := by
          refine Finset.sum_le_sum fun c _ => ?_
          rw [delivered, List.length_map]
          exact (hclient c).printed_le
      _ = ∑ i ∈ clientsOf layout w, (delivered i (s i)).length := by
          rw [clientsOf, Finset.sum_map]
          rfl
      _ ≤ ∑ i ∈ {.inl w}, (((deployment layout).component i).outbox (s i)).length := by
          refine honce.sum_length_le ?_
          intro i hi packet hpacket j x hcarries
          obtain ⟨c, hc, rfl⟩ := Finset.mem_map.mp hi
          have hpeer := peer_of_delivered h₀ h hpacket
          obtain ⟨-, rfl⟩ := hcarries
          rw [Finset.mem_singleton]
          refine layout.distinct (hpeer.trans ?_)
          rw [(Finset.mem_filter.mp hc).2]
      _ ≤ (worker s w).handledLog.length := by
          rw [Finset.sum_singleton]
          exact hworker.sent_le
  · calc (worker s w).handledLog.length
        ≤ ∑ i ∈ {.inl w}, (delivered i (s i)).length := by
          rw [Finset.sum_singleton, delivered, List.length_map]
          exact hworker.handled_le
      _ ≤ ∑ i ∈ clientsOf layout w, (((deployment layout).component i).outbox (s i)).length := by
          refine honce.sum_length_le ?_
          intro i hi packet hpacket j x hcarries
          obtain rfl := Finset.mem_singleton.mp hi
          obtain ⟨c, hserver, hpeer⟩ := peer_of_delivered h₀ h hpacket
          obtain ⟨-, rfl⟩ := hcarries
          obtain rfl : j = .inr c := layout.distinct hpeer
          exact mem_clientsOf hserver
      _ ≤ ∑ c with layout.server c = w, (client s c).requests := by
          rw [clientsOf, Finset.sum_map]
          exact Finset.sum_le_sum fun c _ => (hclient c).sent_le

end system

/-- In the round trip one request was made and one reply printed.
Source: `net_connection.c`, the two thread functions; `server_worker.c`, `server_worker_update`
Kind: C -/
theorem replies_le_requests_pair :
    ∃ s, SystemRun pairLayout pairStart pairRun s ∧ (deployment pairLayout).Once delivered s ∧
      (client s ()).printed.length ≤ (client s ()).requests := by
  obtain ⟨s, hrun, hs⟩ := Run.exists_of_exec
    (show (exec (deployment pairLayout).step (deployment pairLayout).Delivered pairStart
        pairRun).map
      (fun s => decide ((deployment pairLayout).Once delivered s)) = some true by
      decide +kernel)
  have honce := of_decide_eq_true hs
  obtain ⟨hprinted, hhandled⟩ := replies_le_requests pairStart_started hrun honce ()
  refine ⟨s, hrun, honce, ?_⟩
  simpa using hprinted.trans hhandled

end CpuMonitor.Cluster
