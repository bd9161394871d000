import CpuMonitor.Server.Flow

/-!
# Where a reply goes

The source of a datagram travels through `socket->incoming_addr`: `recvfrom` stores it there, the
receive thread copies it into the message; later the send thread copies it back from the reply and
`sendto` reads it. Both threads use the one field, without a lock.

* `NoClobber` — neither thread writes another address into the field while the other thread is
  between its write and its read.
* `Conn.Addressed` — the field, the messages under way and the datagrams sent carry the address of
  the datagram they belong to; kept by every step that meets the condition
  (`Conn.Addressed.moved`).
* `replies_reach_asker` — in such a run every reply goes to the client that asked;
  `reply_misdirected` is a run of two clients in which one does not.
-/

namespace CpuMonitor.Server

open CpuMonitor.Lib CpuMonitor.Network

variable {Q σ ε : Type} {handler : Handler ε σ}

/-! ## The shared field -/

/-- The source of the datagram number `id`.
Source: none: infrastructure
Kind: D -/
def Conn.source (s : Conn Q σ) (id : ℕ) : Option SockaddrIn :=
  s.receipts[id]?.map fun r => r.packet.source

/-- Each datagram handed to `sendto` goes to the source of the request it was made from.
Source: none: infrastructure
Kind: D -/
def Conn.RepliesToAsker (s : Conn Q σ) : Prop :=
  ∀ x ∈ s.sent, s.source x.message.id = some x.dest

/-- Whether every reply goes to its asker can be computed.
Source: none: infrastructure
Kind: D -/
instance (s : Conn Q σ) : Decidable s.RepliesToAsker :=
  inferInstanceAs (Decidable (∀ x ∈ s.sent, s.source x.message.id = some x.dest))

/-- The receive thread has an address in `incoming_addr` that it has not read yet.
Source: none: infrastructure
Kind: D -/
def RecvPc.pending : RecvPc → Bool
  | .received _ => true
  | .header _ => true
  | _ => false

/-- The send thread has an address in `incoming_addr` that `sendto` has not read yet.
Source: none: infrastructure
Kind: D -/
def SendPc.pending : SendPc → Bool
  | .addressed _ => true
  | _ => false

/-- Neither thread overwrites an address the other has still to read, unless with the same one.
Source: none: infrastructure
Kind: D -/
def NoClobber (s : Conn Q σ) : Label ε → Prop
  | .recvfrom packet => s.send.pending = true → packet.source = s.socket.incomingAddr
  | .address => s.recv.pending = true →
      ∀ t ∈ s.send.hand, t.body.header.ownerAddr = s.socket.incomingAddr
  | _ => True

/-- The address the receive thread is at work with is the source of its datagram.
Source: none: infrastructure
Kind: D -/
def Conn.RecvAddressed (s : Conn (Fifo Tagged) σ) : Prop :=
  match s.recv with
  | .idle => True
  | .received id => s.source id = some s.socket.incomingAddr
  | .header t => s.source t.id = some s.socket.incomingAddr
  | .owned t => s.source t.id = some t.body.header.ownerAddr
  | .built t => s.source t.id = some t.body.header.ownerAddr

/-- Every address is the source of the datagram it belongs to.
Source: none: infrastructure
Kind: D -/
structure Conn.Addressed (s : Conn (Fifo Tagged) σ) : Prop where
  recv : s.RecvAddressed
  requests : ∀ t ∈ s.requests, s.source t.id = some t.body.header.ownerAddr
  replies : ∀ t ∈ s.replies, s.source t.id = some t.body.header.ownerAddr
  send : ∀ t, s.send = .addressed t → s.socket.incomingAddr = t.body.header.ownerAddr
  sent : s.RepliesToAsker

/-! ## What a step does to the addresses -/

section step

variable {s s' : Conn (Fifo Tagged) σ} {l : Label ε}

/-- Later datagrams do not change the source of an earlier one.
Source: `net_connection.c`, the two thread functions; `socket_udp.c`
Kind: L -/
theorem Conn.source_mono (hpre : s.receipts <+: s'.receipts) {id : ℕ} {a : SockaddrIn}
    (h : s.source id = some a) : s'.source id = some a := by
  obtain ⟨later, hlater⟩ := hpre
  obtain ⟨r, hr, ha⟩ := Option.map_eq_some_iff.mp h
  have hlt : id < s.receipts.length := (List.getElem?_eq_some_iff.mp hr).1
  rw [Conn.source, ← hlater, List.getElem?_append_left hlt, hr, Option.map_some, ha]

/-- A step that leaves the receive thread where it is, and the field as it is if the thread has
still to read it.
Source: `net_connection.c`, the two thread functions; `socket_udp.c`
Kind: L -/
theorem Conn.RecvAddressed.frame (h : s.RecvAddressed) (hrecv : s'.recv = s.recv)
    (hreceipts : s'.receipts = s.receipts)
    (haddr : s.recv.pending = true → s'.socket.incomingAddr = s.socket.incomingAddr) :
    s'.RecvAddressed := by
  cases hpc : s.recv with
  | idle => simp only [Conn.RecvAddressed, hrecv, hpc]
  | received id =>
      simp only [Conn.RecvAddressed, Conn.source, hrecv, hpc, hreceipts] at h ⊢
      rw [h, haddr (by rw [hpc]; rfl)]
  | header t =>
      simp only [Conn.RecvAddressed, Conn.source, hrecv, hpc, hreceipts] at h ⊢
      rw [h, haddr (by rw [hpc]; rfl)]
  | owned t =>
      simp only [Conn.RecvAddressed, Conn.source, hrecv, hpc, hreceipts] at h ⊢
      exact h
  | built t =>
      simp only [Conn.RecvAddressed, Conn.source, hrecv, hpc, hreceipts] at h ⊢
      exact h

/-- The receive thread's side: it reads back the address `recvfrom` stored.
Source: `net_connection.c`, the two thread functions; `socket_udp.c`
Kind: P -/
theorem Conn.RecvAddressed.moved (h : s.RecvAddressed) (hok : NoClobber s l)
    (hm : Moved fifoOps handler s l s') : s'.RecvAddressed := by
  cases hm with
  | @recvfrom packet pc =>
      show (s.receipts ++ [_])[s.receipts.length]?.map _ = some packet.source
      rw [List.getElem?_concat_length, Option.map_some]
  | recvfromFailed pc => exact h
  | createFailed pc create => exact trivial
  | createHeader pc create =>
      simp only [Conn.RecvAddressed, pc] at h
      exact h
  | readOwner pc =>
      simp only [Conn.RecvAddressed, pc] at h
      exact h
  | readData pc data =>
      simp only [Conn.RecvAddressed, pc] at h
      rw [← ownerAddr_of_receiveData data] at h
      exact h
  | enqueueIncoming pc enqueue => exact trivial
  | updateCall pc => exact h.frame rfl rfl fun _ => rfl
  | workEmpty pc dequeue => exact h.frame rfl rfl fun _ => rfl
  | workDequeue pc dequeue => exact h.frame rfl rfl fun _ => rfl
  | handle pc call => exact h.frame rfl rfl fun _ => rfl
  | enqueueOutgoing pc enqueue => exact h.frame rfl rfl fun _ => rfl
  | updateReturn pc done => exact h.frame rfl rfl fun _ => rfl
  | sendEmpty pc dequeue => exact h.frame rfl rfl fun _ => rfl
  | sendDequeue pc dequeue => exact h.frame rfl rfl fun _ => rfl
  | reject pc header data failed =>
      have haddr := (netConnectionWriteHeader_frame header).1
      exact h.frame rfl rfl fun _ => (netConnectionWriteData_frame data).1.trans haddr
  | encode pc header data =>
      have haddr := (netConnectionWriteHeader_frame header).1
      exact h.frame rfl rfl fun _ => (netConnectionWriteData_frame data).1.trans haddr
  | @address t pc =>
      exact h.frame rfl rfl fun hpending =>
        hok hpending t (by rw [pc]; exact List.mem_singleton_self t)
  | sendto pc send => exact h.frame rfl rfl fun _ => rfl

/-- The send thread's side: what it stored is still there when `sendto` reads it.
Source: `net_connection.c`, the two thread functions; `socket_udp.c`
Kind: P -/
theorem Conn.Addressed.send_moved (h : s.Addressed) (hok : NoClobber s l)
    (hm : Moved fifoOps handler s l s') {t : Tagged} (ht : s'.send = .addressed t) :
    s'.socket.incomingAddr = t.body.header.ownerAddr := by
  cases hm with
  | @recvfrom packet pc =>
      have hsend : s.send = .addressed t := ht
      have hsource : packet.source = s.socket.incomingAddr := hok (by rw [hsend]; rfl)
      exact hsource.trans (h.send t hsend)
  | address pc =>
      cases ht
      rfl
  | sendDequeue pc dequeue => cases ht
  | reject pc header data failed => cases ht
  | encode pc header data => cases ht
  | sendto pc send => cases ht
  | _ => exact h.send t ht

/-- What `sendto` is given.
Source: `net_connection.c`, the two thread functions; `socket_udp.c`
Kind: L -/
theorem Conn.Addressed.sent_moved (h : s.Addressed) (hm : Moved fifoOps handler s l s') :
    s'.RepliesToAsker := by
  have hmono : ∀ x ∈ s.sent, s'.source x.message.id = some x.dest := by
    intro x hx
    exact Conn.source_mono hm.flowed.receipts_isPrefix (h.sent x hx)
  cases hm with
  | @sendto t bytes dest pc send =>
      intro x hx
      rcases List.mem_append.mp hx with hx | hx
      · exact hmono x hx
      · obtain ⟨bytes', -, heq⟩ := Option.bind_eq_some_iff.mp send
        cases heq
        have hreply : t ∈ s.replies := by simp [Conn.replies, Conn.waiting, SendPc.hand, pc]
        rw [List.mem_singleton.mp hx, h.send t pc]
        exact h.replies t hreply
  | _ => exact hmono

/-- **Every address stays the right one**, for a worker function that does not touch it, through
every step that clobbers nothing.
Source: `net_connection.c`, the two thread functions; `socket_udp.c`
Kind: P -/
theorem Conn.Addressed.moved
    (hkeeps : ∀ env store m m' store', handler env store m = some (m', store') →
      m'.header.ownerAddr = m.header.ownerAddr)
    (h : s.Addressed) (hok : NoClobber s l) (hm : Moved fifoOps handler s l s') :
    s'.Addressed := by
  have hflow := hm.flowed
  have hpre := hflow.receipts_isPrefix
  have hrequests : ∀ t ∈ s.requests, s'.source t.id = some t.body.header.ownerAddr := by
    intro t ht
    exact Conn.source_mono hpre (h.requests t ht)
  have hreplies : ∀ t ∈ s.replies, s'.source t.id = some t.body.header.ownerAddr := by
    intro t ht
    exact Conn.source_mono hpre (h.replies t ht)
  refine ⟨h.recv.moved hok hm, ?_, ?_, fun t ht => h.send_moved hok hm ht, h.sent_moved hm⟩
  · apply hflow.forall_requests hrequests
    intro t pc
    have hbuilt := h.recv
    simp only [Conn.RecvAddressed, pc] at hbuilt
    exact Conn.source_mono hpre hbuilt
  · apply hflow.forall_replies hreplies
    intro env t m store ht call
    have howner := hkeeps env s.store t.body m store call
    exact (hrequests t ht).trans (congrArg some howner.symm)

/-- **The race.** A receipt that overwrites the address of a reply between its store and `sendto`
sends the reply to the wrong client.
Source: `net_connection.c`, the two thread functions; `socket_udp.c`
Kind: P -/
theorem Conn.Addressed.not_repliesToAsker (h : s.Addressed) {packet : Packet}
    (hbad : ¬ NoClobber s (.recvfrom packet : Label ε))
    {s₁ s₂ : Conn (Fifo Tagged) σ} (h₁ : Moved fifoOps handler s (.recvfrom packet) s₁)
    (h₂ : Moved fifoOps handler s₁ .sendto s₂) : ¬ s₂.RepliesToAsker := by
  obtain ⟨-, hne⟩ := Classical.not_imp.mp hbad
  have hpre := h₁.flowed.receipts_isPrefix.trans h₂.flowed.receipts_isPrefix
  have hmono : ∀ t ∈ s.replies, s₂.source t.id = some t.body.header.ownerAddr := by
    intro t ht
    exact Conn.source_mono hpre (h.replies t ht)
  intro hreplies
  cases h₁ with
  | recvfrom pc =>
      cases h₂ with
      | @sendto t bytes dest pc' send =>
          obtain ⟨bytes', -, heq⟩ := Option.bind_eq_some_iff.mp send
          cases heq
          have hsend : s.send = .addressed t := pc'
          have hreply : t ∈ s.replies := by simp [Conn.replies, Conn.waiting, SendPc.hand, hsend]
          have hdest := hreplies _ (List.mem_append_right _ (List.mem_singleton_self _))
          have howner := Option.some.inj ((hmono t hreply).symm.trans hdest)
          exact hne (howner.symm.trans (h.send t hsend).symm)

end step

/-! ## Every run -/

/-- A new connection has sent nothing.
Source: `net_connection.c`, the two thread functions; `socket_udp.c`
Kind: L -/
theorem Conn.Addressed.init {socket : UdpSocket} {c₁ c₂ : ℕ} {store : σ} :
    (Conn.init socket ⟨c₁, []⟩ ⟨c₂, []⟩ store).Addressed where
  recv := trivial
  requests := fun _ ht => absurd ht List.not_mem_nil
  replies := fun _ ht => absurd ht List.not_mem_nil
  send := fun _ ht => SendPc.noConfusion ht
  sent := fun _ hx => absurd hx List.not_mem_nil

/-- **Every reply goes to the client that asked**, in every run, over datagrams from any set of
clients and any interleaving of the receive thread, the worker and the send thread, in which
neither thread overwrites `incoming_addr` while the other has still to read it.
Source: `net_connection.c`, the two thread functions; `socket_udp.c`; `server_worker.c`,
`server_worker_update`
Kind: P
Hyps: `NoClobber` before every step; the capacities are `int`s -/
theorem replies_reach_asker {calls₁ calls₂ : CreateCalls} {c₁ c₂ : ℤ}
    {q₁ q₂ : MessageQueue Tagged} (hc₁ : c₁ ≤ intMax) (hc₂ : c₂ ≤ intMax)
    (hq₁ : messageQueueCreate calls₁ c₁ = some q₁) (hq₂ : messageQueueCreate calls₂ c₂ = some q₂)
    (socket : UdpSocket) (j : Journal) {ls : List (Label HandlerEnv)}
    {s : Conn (MessageQueue Tagged) Journal}
    (h : Run (step ringOps workerOnMessage) NoClobber (Conn.init socket q₁ q₂ j) ls s) :
    s.RepliesToAsker := by
  have hok : ∀ (s : Conn (MessageQueue Tagged) Journal) (l : Label HandlerEnv),
      NoClobber s l → NoClobber s.fifo l := by
    intro s l hs
    cases l <;> exact hs
  obtain ⟨hrun, -⟩ := run_refines_of_create hok hc₁ hc₂ hq₁ hq₂ h
  have hinv : s.fifo.Addressed := hrun.invariant Conn.Addressed.init fun _ _ _ hinv hok hs =>
    hinv.moved (fun _ _ _ _ _ => ownerAddr_of_workerOnMessage) hok (moved_of_step hs)
  exact hinv.sent

/-- Whether a step leaves a pending address alone can be computed.
Source: none: infrastructure
Kind: D -/
instance (s : Conn Q σ) : DecidablePred (NoClobber s (ε := ε))
  | .recvfrom packet => inferInstanceAs
      (Decidable (s.send.pending = true → packet.source = s.socket.incomingAddr))
  | .address => inferInstanceAs (Decidable (s.recv.pending = true →
      ∀ t ∈ s.send.hand, t.body.header.ownerAddr = s.socket.incomingAddr))
  | .recvfromFailed | .createHeader _ _ | .readOwner | .readData | .enqueueIncoming _
  | .updateCall _ | .workDequeue _ | .handle _ | .enqueueOutgoing _ | .updateReturn _
  | .sendDequeue _ | .encode | .sendto => .isTrue trivial

/-- The address of another client.
Source: none: infrastructure
Kind: D -/
def secondClient : SockaddrIn := ⟨2, 81, 2, 0⟩

/-- The second datagram arrives before the first reply is taken from its queue, and nothing
overlaps.
Source: none: infrastructure
Kind: D -/
def inTurn : List (Label HandlerEnv) :=
  firstRequest .allOk .allOk ++ receiveLabels (unknownRequest secondClient) zeroMemory .allOk ++
    sendLabels true ++ handleLabels quietEnv .allOk ++ sendLabels true

/-- The second datagram arrives between the store of the first reply's address and `sendto`.
Source: none: infrastructure
Kind: D -/
def receiptBeforeSendto : List (Label HandlerEnv) :=
  firstRequest .allOk .allOk ++ addressLabels ++ [.recvfrom (unknownRequest secondClient), .sendto]

/-- The first reply is addressed between the receipt of the second datagram and the copy of its
source.
Source: none: infrastructure
Kind: D -/
def addressBeforeCopy : List (Label HandlerEnv) :=
  firstRequest .allOk .allOk ++ [.recvfrom (unknownRequest secondClient)] ++ addressLabels ++
    [.sendto, .createHeader .allOk zeroMemory, .readOwner, .readData, .enqueueIncoming .allOk] ++
    handleLabels quietEnv .allOk ++ sendLabels true

/-- For each datagram sent, the source of its request and the address it went to.
Source: none: infrastructure
Kind: D -/
def Conn.delivered (s : Conn Q σ) : List (Option SockaddrIn × SockaddrIn) :=
  s.sent.map fun x => (s.source x.message.id, x.dest)

/-- Two clients, each with its own reply.
Source: `net_connection.c`, the two thread functions; `socket_udp.c`
Kind: C -/
theorem replies_reach_two_askers :
    ∃ s, Run (step ringOps workerOnMessage) NoClobber newWorker inTurn s ∧
      s.delivered = [(some firstClient, firstClient), (some secondClient, secondClient)] ∧
      s.RepliesToAsker := by
  obtain ⟨s, hrun, hdest⟩ := Run.exists_of_exec
    (show (exec (step ringOps workerOnMessage) NoClobber newWorker inTurn).map
      (fun s => decide (s.delivered =
        [(some firstClient, firstClient), (some secondClient, secondClient)])) = some true by
      decide +kernel)
  exact ⟨s, hrun, of_decide_eq_true hdest, replies_reach_asker (by decide) (by decide)
    messageQueueCreate_emptyQueue messageQueueCreate_emptyQueue _ _ hrun⟩

/-- **Two races.** A datagram that arrives between the store of a reply's address and `sendto` takes
the reply; a reply addressed between `recvfrom` and the copy of its source gives a request the
address of another client, and the answer goes there.
Source: `net_connection.c`, the two thread functions; `socket_udp.c`
Kind: C -/
theorem reply_misdirected :
    (∃ s, Run (step ringOps workerOnMessage) (fun _ _ => True) newWorker receiptBeforeSendto s ∧
      s.delivered = [(some firstClient, secondClient)] ∧ ¬ s.RepliesToAsker) ∧
    ∃ s, Run (step ringOps workerOnMessage) (fun _ _ => True) newWorker addressBeforeCopy s ∧
      s.delivered = [(some firstClient, firstClient), (some secondClient, firstClient)] ∧
      ¬ s.RepliesToAsker := by
  obtain ⟨s₁, hrun₁, hsent₁⟩ := Run.exists_of_exec
    (show (exec (step ringOps workerOnMessage) (fun _ _ => True) newWorker receiptBeforeSendto).map
      (fun s => decide (s.delivered = [(some firstClient, secondClient)] ∧ ¬ s.RepliesToAsker)) =
        some true by decide +kernel)
  obtain ⟨s₂, hrun₂, hsent₂⟩ := Run.exists_of_exec
    (show (exec (step ringOps workerOnMessage) (fun _ _ => True) newWorker addressBeforeCopy).map
      (fun s => decide (s.delivered = [(some firstClient, firstClient),
        (some secondClient, firstClient)] ∧ ¬ s.RepliesToAsker)) = some true by decide +kernel)
  exact ⟨⟨s₁, hrun₁, of_decide_eq_true hsent₁⟩, s₂, hrun₂, of_decide_eq_true hsent₂⟩

end CpuMonitor.Server
