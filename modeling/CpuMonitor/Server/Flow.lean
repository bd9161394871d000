import CpuMonitor.Lib.Numbering
import CpuMonitor.Server.Pipeline
import CpuMonitor.Server.Service

/-!
# The flow of messages through a worker's connection

Every datagram received takes the way receive thread, incoming queue, worker function, outgoing
queue, send thread. The messages upstream of the worker function are the **requests**, those
downstream of it, sent ones included, the **replies**.

* `Flowed` says what a step can do to the two lists: nothing but lose members, take a new message in
  at the end of the requests, or move the oldest request to the end of the replies through the
  worker function (`Moved.flowed`).
* **Order**: the numbers of the replies, the requests and the datagram being decoded, in this
  order, increase (`Conn.sendOrder`); so do those of the handled messages and the requests
  (`Conn.handleOrder`).
* **Origin**: each request was decoded from the datagram of its number, each reply is what the
  worker function made of it (`Conn.Traced`).
* **Accounting**: with all `pthread_*` calls succeeding, every datagram received has one of the
  outcomes of `Outcome`.
* `served_in_order` — the three together, in every run over the ring buffers of `message_queue.c`.
-/

namespace CpuMonitor.Server

open CpuMonitor.Lib CpuMonitor.Network

variable {σ ε : Type} {handler : Handler ε σ}

/-! ## The places of a message -/

/-- The number of the datagram the receive thread is at work on.
Source: none: infrastructure
Kind: D -/
def RecvPc.ids : RecvPc → List ℕ
  | .idle => []
  | .received id => [id]
  | .header t => [t.id]
  | .owned t => [t.id]
  | .built t => [t.id]

/-- The message in the receive thread's hands.
Source: none: infrastructure
Kind: D -/
def RecvPc.hand : RecvPc → List Tagged
  | .idle => []
  | .received _ => []
  | .header t => [t]
  | .owned t => [t]
  | .built t => [t]

/-- The message in the worker's hands before the worker function.
Source: none: infrastructure
Kind: D -/
def WorkPc.unhandled : WorkPc → List Tagged
  | .got _ t => [t]
  | _ => []

/-- The message in the worker's hands after the worker function.
Source: none: infrastructure
Kind: D -/
def WorkPc.answered : WorkPc → List Tagged
  | .handled _ t => [t]
  | _ => []

/-- The message in the send thread's hands.
Source: none: infrastructure
Kind: D -/
def SendPc.hand : SendPc → List Tagged
  | .idle => []
  | .taken t => [t]
  | .encoded t => [t]
  | .addressed t => [t]

namespace Conn

variable (s : Conn (Fifo Tagged) σ)

/-- The messages before the worker function, oldest first.
Source: none: infrastructure
Kind: D -/
def requests : List Tagged := s.work.unhandled ++ s.incoming.items

/-- The messages after the worker function that are not sent yet, oldest first.
Source: none: infrastructure
Kind: D -/
def waiting : List Tagged := s.send.hand ++ s.outgoing.items ++ s.work.answered

/-- The messages after the worker function, sent ones included, oldest first.
Source: none: infrastructure
Kind: D -/
def replies : List Tagged := s.sent.map Sent.message ++ s.waiting

/-- The numbers of the messages in a queue or in a thread's hands.
Source: none: infrastructure
Kind: D -/
def live : List ℕ := (s.waiting ++ s.requests).map Tagged.id ++ s.recv.ids

/-- The numbers along the way to `sendto`.
Source: none: infrastructure
Kind: D -/
def sendOrder : List ℕ := (s.replies ++ s.requests).map Tagged.id ++ s.recv.ids

/-- The numbers along the way to the worker function.
Source: none: infrastructure
Kind: D -/
def handleOrder : List ℕ :=
  s.handledLog.map Handled.id ++ s.requests.map Tagged.id ++ s.recv.ids

end Conn

/-! ## What a step does to the flow -/

/-- A step, in terms of requests and replies.
Source: none: infrastructure
Kind: D -/
inductive Flowed (handler : Handler ε σ) (s s' : Conn (Fifo Tagged) σ) : Prop
  /-- Messages are lost at most. -/
  | keep (requests : s'.requests.Sublist s.requests) (replies : s'.replies.Sublist s.replies)
      (recv : s'.recv.ids.Sublist s.recv.ids) (log : s'.handledLog = s.handledLog)
      (receipts : s'.receipts = s.receipts)
  /-- A datagram arrives. -/
  | receive (r : Receipt) (pc : s.recv.ids = []) (recv : s'.recv.ids = [s.receipts.length])
      (receipts : s'.receipts = s.receipts ++ [r]) (requests : s'.requests = s.requests)
      (replies : s'.replies = s.replies) (log : s'.handledLog = s.handledLog)
  /-- A decoded message becomes the newest request. -/
  | enqueue (t : Tagged) (pc : s.recv = .built t) (recv : s'.recv = .idle)
      (requests : s'.requests.Sublist (s.requests ++ [t])) (replies : s'.replies = s.replies)
      (log : s'.handledLog = s.handledLog) (receipts : s'.receipts = s.receipts)
  /-- The worker function turns the oldest request into the newest reply. -/
  | handle (env : ε) (t : Tagged) (m : Message) (store : σ)
      (call : handler env s.store t.body = some (m, store))
      (requests : s.requests = t :: s'.requests) (replies : s'.replies = s.replies ++ [⟨t.id, m⟩])
      (log : s'.handledLog = s.handledLog ++ [⟨t.id, t.body, m⟩]) (recv : s'.recv = s.recv)
      (receipts : s'.receipts = s.receipts)

section flowed

variable {s s' : Conn (Fifo Tagged) σ} {l : Label ε}

/-- **Every step keeps the flow.**
Source: `net_connection.c`, the two thread functions; `server_worker.c`, `server_worker_update`
Kind: P -/
theorem Moved.flowed (hm : Moved fifoOps handler s l s') : Flowed handler s s' := by
  cases hm with
  | recvfrom pc => exact .receive _ (by rw [pc]; rfl) rfl rfl rfl rfl rfl
  | recvfromFailed pc => exact .keep (.refl _) (.refl _) (.refl _) rfl rfl
  | createFailed pc create =>
      exact .keep (.refl _) (.refl _) (List.nil_sublist _) rfl rfl
  | createHeader pc create =>
      exact .keep (.refl _) (.refl _) (by rw [pc]; exact .refl _) rfl rfl
  | readOwner pc => exact .keep (.refl _) (.refl _) (by rw [pc]; exact .refl _) rfl rfl
  | readData pc data => exact .keep (.refl _) (.refl _) (by rw [pc]; exact .refl _) rfl rfl
  | @enqueueIncoming calls t status q dropped pc enqueue =>
      have hsub := Fifo.sublist_of_enqueue (Option.some.inj enqueue)
      refine .enqueue t pc rfl ?_ rfl rfl rfl
      rw [Conn.requests, Conn.requests, List.append_assoc]
      exact ((List.sublist_append_right dropped q.items).trans hsub).append_left _
  | updateCall pc =>
      refine .keep ?_ ?_ (.refl _) rfl rfl
      · simp [Conn.requests, WorkPc.unhandled, pc]
      · simp [Conn.replies, Conn.waiting, WorkPc.answered, pc]
  | workEmpty pc dequeue =>
      obtain ⟨hsub, -, -⟩ := Fifo.items_of_dequeue_none (Option.some.inj dequeue)
      exact .keep (hsub.append_left _) (.refl _) (.refl _) rfl rfl
  | workDequeue pc dequeue =>
      obtain ⟨hitems, -⟩ := Fifo.items_of_dequeue_some (Option.some.inj dequeue)
      refine .keep ?_ ?_ (.refl _) rfl rfl
      · simp [Conn.requests, WorkPc.unhandled, pc, hitems]
      · simp [Conn.replies, Conn.waiting, WorkPc.answered, pc]
  | @handle env left t m store pc call =>
      refine .handle env t m store call ?_ ?_ rfl rfl rfl
      · simp [Conn.requests, WorkPc.unhandled, pc]
      · simp [Conn.replies, Conn.waiting, WorkPc.answered, pc]
  | @enqueueOutgoing calls left t status q dropped pc enqueue =>
      have hsub := Fifo.sublist_of_enqueue (Option.some.inj enqueue)
      have hq := (List.sublist_append_right dropped q.items).trans hsub
      refine .keep ?_ ?_ (.refl _) rfl rfl
      · simp [Conn.requests, WorkPc.unhandled, pc]
      · simpa [Conn.replies, Conn.waiting, WorkPc.answered, pc] using hq
  | updateReturn pc done =>
      refine .keep ?_ ?_ (.refl _) rfl rfl
      · simp [Conn.requests, WorkPc.unhandled, pc]
      · simp [Conn.replies, Conn.waiting, WorkPc.answered, pc]
  | sendEmpty pc dequeue =>
      obtain ⟨hsub, -, -⟩ := Fifo.items_of_dequeue_none (Option.some.inj dequeue)
      refine .keep (.refl _) ?_ (.refl _) rfl rfl
      simpa [Conn.replies, Conn.waiting] using hsub
  | sendDequeue pc dequeue =>
      obtain ⟨hitems, -⟩ := Fifo.items_of_dequeue_some (Option.some.inj dequeue)
      refine .keep (.refl _) ?_ (.refl _) rfl rfl
      simp [Conn.replies, Conn.waiting, SendPc.hand, pc, hitems]
  | reject pc header data failed =>
      refine .keep (.refl _) ?_ (.refl _) rfl rfl
      simp [Conn.replies, Conn.waiting, SendPc.hand, pc]
  | encode pc header data =>
      refine .keep (.refl _) ?_ (.refl _) rfl rfl
      simp [Conn.replies, Conn.waiting, SendPc.hand, pc]
  | address pc =>
      refine .keep (.refl _) ?_ (.refl _) rfl rfl
      simp [Conn.replies, Conn.waiting, SendPc.hand, pc]
  | sendto pc send =>
      refine .keep (.refl _) ?_ (.refl _) rfl rfl
      simp [Conn.replies, Conn.waiting, SendPc.hand, pc]

/-- A property of the requests is kept if the decoded message that may join them has it.
Source: `net_connection.c`, the two thread functions; `server_worker.c`, `server_worker_update`
Kind: L -/
theorem Flowed.forall_requests {P : Tagged → Prop} (h : Flowed handler s s')
    (hrequests : ∀ t ∈ s.requests, P t) (hbuilt : ∀ t, s.recv = .built t → P t) :
    ∀ t ∈ s'.requests, P t := by
  intro t' ht'
  cases h with
  | keep requests => exact hrequests t' (requests.subset ht')
  | receive _ _ _ _ requests => exact hrequests t' (requests ▸ ht')
  | enqueue t pc _ requests =>
      rcases List.mem_append.mp (requests.subset ht') with hold | hnew
      · exact hrequests t' hold
      · rw [List.mem_singleton.mp hnew]
        exact hbuilt t pc
  | handle _ t _ _ _ requests => exact hrequests t' (requests ▸ List.mem_cons_of_mem t ht')

/-- A property of the replies is kept if what the worker function makes of a request has it.
Source: `net_connection.c`, the two thread functions; `server_worker.c`, `server_worker_update`
Kind: L -/
theorem Flowed.forall_replies {P : Tagged → Prop} (h : Flowed handler s s')
    (hreplies : ∀ t ∈ s.replies, P t)
    (hcall : ∀ env t m store, t ∈ s.requests → handler env s.store t.body = some (m, store) →
      P ⟨t.id, m⟩) : ∀ t ∈ s'.replies, P t := by
  intro t' ht'
  cases h with
  | keep _ replies => exact hreplies t' (replies.subset ht')
  | receive _ _ _ _ _ replies => exact hreplies t' (replies ▸ ht')
  | enqueue _ _ _ _ replies => exact hreplies t' (replies ▸ ht')
  | handle env t m store call requests replies =>
      rw [replies] at ht'
      rcases List.mem_append.mp ht' with hold | hnew
      · exact hreplies t' hold
      · rw [List.mem_singleton.mp hnew]
        exact hcall env t m store (requests ▸ List.mem_cons_self) call

/-! ## Order -/

/-- Along the way to `sendto` nothing overtakes.
Source: `net_connection.c`, the two thread functions; `server_worker.c`, `server_worker_update`
Kind: P -/
theorem Flowed.advance_sendOrder (h : Flowed handler s s') :
    Advance s.sendOrder s.receipts.length s'.sendOrder s'.receipts.length := by
  cases h with
  | keep requests replies recv log receipts =>
      rw [receipts]
      exact .sublist (((replies.append requests).map Tagged.id).append recv)
  | receive r pc recv receipts requests replies log =>
      have hlen : s'.receipts.length = s.receipts.length + 1 := by simp [receipts]
      have hpath : s'.sendOrder = s.sendOrder ++ [s.receipts.length] := by
        simp [Conn.sendOrder, pc, recv, requests, replies]
      rw [hlen, hpath]
      exact .arrival
  | enqueue t pc recv requests replies log receipts =>
      rw [receipts]
      refine .sublist ?_
      have hmap := (requests.append_left s.replies).map Tagged.id
      simpa [Conn.sendOrder, pc, recv, replies, RecvPc.ids] using hmap
  | handle env t m store call requests replies log recv receipts =>
      rw [receipts]
      refine .sublist ?_
      simp [Conn.sendOrder, requests, replies, recv]

/-- Along the way to the worker function nothing overtakes.
Source: `net_connection.c`, the two thread functions; `server_worker.c`, `server_worker_update`
Kind: P -/
theorem Flowed.advance_handleOrder (h : Flowed handler s s') :
    Advance s.handleOrder s.receipts.length s'.handleOrder s'.receipts.length := by
  cases h with
  | keep requests replies recv log receipts =>
      rw [receipts]
      refine .sublist ?_
      rw [Conn.handleOrder, Conn.handleOrder, log]
      exact ((requests.map Tagged.id).append_left _).append recv
  | receive r pc recv receipts requests replies log =>
      have hlen : s'.receipts.length = s.receipts.length + 1 := by simp [receipts]
      have hpath : s'.handleOrder = s.handleOrder ++ [s.receipts.length] := by
        simp [Conn.handleOrder, pc, recv, requests, log]
      rw [hlen, hpath]
      exact .arrival
  | enqueue t pc recv requests replies log receipts =>
      rw [receipts]
      refine .sublist ?_
      have hmap := (requests.map Tagged.id).append_left (s.handledLog.map Handled.id)
      simpa [Conn.handleOrder, pc, recv, log, RecvPc.ids] using hmap
  | handle env t m store call requests replies log recv receipts =>
      rw [receipts]
      refine .sublist ?_
      simp [Conn.handleOrder, requests, log, recv]

/-! ## Origin -/

/-- The message the receive thread decodes from a receive buffer, with the address it finds in
`incoming_addr` and what `malloc` left in the data block.
Source: `net_connection.c`, `net_connection_receive_thread_func`
Kind: D -/
def DecodedFrom (r : Receipt) (m : Message) : Prop :=
  ∃ (owner : SockaddrIn) (fresh : FreshMemory),
    m = built r.buffer owner (fresh.block udpSocketBufferSize)

/-- The message was decoded from the datagram number `id`.
Source: `net_connection.c`, `net_connection_receive_thread_func`
Kind: D -/
def Conn.Origin (s : Conn (Fifo Tagged) σ) (id : ℕ) (m : Message) : Prop :=
  ∃ r, s.receipts[id]? = some r ∧ DecodedFrom r m

/-- What the receive thread has read so far comes from the receive buffer, which still holds the
datagram it is at work on.
Source: none: infrastructure
Kind: D -/
def Conn.Decoding (s : Conn (Fifo Tagged) σ) : Prop :=
  match s.recv with
  | .idle => True
  | .received id => ∃ r, s.receipts[id]? = some r ∧ r.buffer = s.socket.incomingBuffer
  | .header t => ∃ r, s.receipts[t.id]? = some r ∧ r.buffer = s.socket.incomingBuffer ∧
      ∃ fresh : FreshMemory, t.body = ⟨wireHeader r.buffer, fresh.block udpSocketBufferSize⟩
  | .owned t => ∃ r, s.receipts[t.id]? = some r ∧ r.buffer = s.socket.incomingBuffer ∧
      ∃ (owner : SockaddrIn) (fresh : FreshMemory),
        t.body = ⟨{ wireHeader r.buffer with ownerAddr := owner }, fresh.block udpSocketBufferSize⟩
  | .built t => s.Origin t.id t.body

/-- The other threads do not disturb the decoding.
Source: `net_connection.c`, the two thread functions; `server_worker.c`, `server_worker_update`
Kind: L -/
theorem Conn.Decoding.frame (h : s.Decoding) (hrecv : s'.recv = s.recv)
    (hreceipts : s'.receipts = s.receipts)
    (hbuffer : s'.socket.incomingBuffer = s.socket.incomingBuffer) : s'.Decoding := by
  simp only [Conn.Decoding, Conn.Origin, hrecv, hreceipts, hbuffer] at h ⊢
  exact h

/-- A step keeps the message under construction in line with its datagram.
Source: `net_connection.c`, the two thread functions; `server_worker.c`, `server_worker_update`
Kind: L -/
theorem Conn.Decoding.moved (h : s.Decoding) (hm : Moved fifoOps handler s l s') :
    s'.Decoding := by
  cases hm with
  | recvfrom pc => exact ⟨_, List.getElem?_concat_length, rfl⟩
  | recvfromFailed pc => exact h
  | createFailed pc create => exact trivial
  | @createHeader calls fresh id new pc create =>
      simp only [Conn.Decoding, pc] at h
      obtain ⟨r, hr, hbuffer⟩ := h
      refine ⟨r, hr, hbuffer, fresh, ?_⟩
      rw [hbuffer, ← data_of_messageCreate create]
  | readOwner pc =>
      simp only [Conn.Decoding, pc] at h
      obtain ⟨r, hr, hbuffer, fresh, hbody⟩ := h
      refine ⟨r, hr, hbuffer, s.socket.incomingAddr, fresh, ?_⟩
      rw [receiveOwner, hbody]
  | @readData t m pc data =>
      simp only [Conn.Decoding, pc] at h
      obtain ⟨r, hr, hbuffer, owner, fresh, hbody⟩ := h
      refine ⟨r, hr, owner, fresh, ?_⟩
      have hblock : t.body.data = fresh.block udpSocketBufferSize := by rw [hbody]
      have hheader : t.body.header = { wireHeader r.buffer with ownerAddr := owner } := by
        rw [hbody]
      have hdata : maxPayload ≤ t.body.data.length := hblock ▸ maxPayload_le_block fresh
      rw [receiveData_eq hdata, Option.some.injEq, hblock, hheader, ← hbuffer] at data
      exact data.symm
  | enqueueIncoming pc enqueue => exact trivial
  | updateCall pc => exact h.frame rfl rfl rfl
  | workEmpty pc dequeue => exact h.frame rfl rfl rfl
  | workDequeue pc dequeue => exact h.frame rfl rfl rfl
  | handle pc call => exact h.frame rfl rfl rfl
  | enqueueOutgoing pc enqueue => exact h.frame rfl rfl rfl
  | updateReturn pc done => exact h.frame rfl rfl rfl
  | sendEmpty pc dequeue => exact h.frame rfl rfl rfl
  | sendDequeue pc dequeue => exact h.frame rfl rfl rfl
  | reject pc header data failed =>
      have hbuffer := (netConnectionWriteHeader_frame header).2
      exact h.frame rfl rfl ((netConnectionWriteData_frame data).2.1.trans hbuffer)
  | encode pc header data =>
      have hbuffer := (netConnectionWriteHeader_frame header).2
      exact h.frame rfl rfl ((netConnectionWriteData_frame data).2.1.trans hbuffer)
  | address pc => exact h.frame rfl rfl rfl
  | sendto pc send => exact h.frame rfl rfl rfl

/-- Every request is decoded from its datagram, every call of the worker function was about a
message decoded from its datagram, and every reply is the result of such a call.
Source: none: infrastructure
Kind: D -/
structure Conn.Traced (handler : Handler ε σ) (s : Conn (Fifo Tagged) σ) : Prop where
  decoding : s.Decoding
  requests : ∀ t ∈ s.requests, s.Origin t.id t.body
  log : ∀ h ∈ s.handledLog, s.Origin h.id h.before ∧
    ∃ env store store', handler env store h.before = some (h.after, store')
  replies : ∀ t ∈ s.replies, ∃ h ∈ s.handledLog, h.id = t.id ∧ h.after = t.body

/-- Later receipts do not change what a message was decoded from.
Source: `net_connection.c`, the two thread functions; `server_worker.c`, `server_worker_update`
Kind: L -/
theorem Conn.Origin.mono {id : ℕ} {m : Message} (h : s.Origin id m)
    (hpre : s.receipts <+: s'.receipts) : s'.Origin id m := by
  obtain ⟨r, hr, hm⟩ := h
  obtain ⟨later, hlater⟩ := hpre
  have hlt : id < s.receipts.length := (List.getElem?_eq_some_iff.mp hr).1
  refine ⟨r, ?_, hm⟩
  rw [← hlater, List.getElem?_append_left hlt, hr]

/-- Receipts are only added at the end.
Source: `net_connection.c`, the two thread functions; `server_worker.c`, `server_worker_update`
Kind: L -/
theorem Flowed.receipts_isPrefix (h : Flowed handler s s') : s.receipts <+: s'.receipts := by
  cases h with
  | keep _ _ _ _ receipts => rw [receipts]
  | receive r _ _ receipts => exact ⟨[r], receipts.symm⟩
  | enqueue _ _ _ _ _ _ receipts => rw [receipts]
  | handle _ _ _ _ _ _ _ _ _ receipts => rw [receipts]

/-- **Origin is kept by every step.**
Source: `net_connection.c`, the two thread functions; `server_worker.c`, `server_worker_update`
Kind: P -/
theorem Conn.Traced.moved (h : s.Traced handler) (hm : Moved fifoOps handler s l s') :
    s'.Traced handler := by
  have hflow := hm.flowed
  have hpre := hflow.receipts_isPrefix
  have hdecoding := h.decoding.moved hm
  have horigin : ∀ t ∈ s.requests, s'.Origin t.id t.body := by
    intro t ht
    exact (h.requests t ht).mono hpre
  have hrequests : ∀ t ∈ s'.requests, s'.Origin t.id t.body := by
    apply hflow.forall_requests horigin
    intro t pc
    -- the new request is the message the receive thread has just decoded
    have hbuilt := h.decoding
    simp only [Conn.Decoding, pc] at hbuilt
    exact hbuilt.mono hpre
  have hlog : ∀ x ∈ s.handledLog, s'.Origin x.id x.before ∧
      ∃ env store store', handler env store x.before = some (x.after, store') := by
    intro x hx
    obtain ⟨hbefore, hcall⟩ := h.log x hx
    exact ⟨hbefore.mono hpre, hcall⟩
  cases hflow with
  | keep requests replies recv log receipts =>
      refine ⟨hdecoding, hrequests, ?_, ?_⟩
      · rwa [log]
      · intro t ht
        rw [log]
        exact h.replies t (replies.subset ht)
  | receive r pc recv receipts requests replies log =>
      refine ⟨hdecoding, hrequests, ?_, ?_⟩
      · rwa [log]
      · rw [replies, log]
        exact h.replies
  | enqueue t pc recv requests replies log receipts =>
      refine ⟨hdecoding, hrequests, ?_, ?_⟩
      · rwa [log]
      · rw [replies, log]
        exact h.replies
  | handle env t m store call requests replies log recv receipts =>
      rw [requests] at horigin
      refine ⟨hdecoding, hrequests, ?_, ?_⟩
      · rw [log]
        intro x hx
        rcases List.mem_append.mp hx with hx | hx
        · exact hlog x hx
        · rw [List.mem_singleton.mp hx]
          exact ⟨horigin t List.mem_cons_self, env, s.store, store, call⟩
      · rw [replies, log]
        intro t' ht'
        rcases List.mem_append.mp ht' with ht' | ht'
        · obtain ⟨x, hx, heq⟩ := h.replies t' ht'
          exact ⟨x, List.mem_append_left _ hx, heq⟩
        · rw [List.mem_singleton.mp ht']
          exact ⟨_, List.mem_append_right _ (List.mem_singleton_self _), rfl, rfl⟩

/-! ## Accounting -/

/-- All `pthread_*` calls of a step succeed.
Source: none: infrastructure
Kind: D -/
def Label.PthreadOk : Label ε → Prop
  | .enqueueIncoming calls => calls = .allOk
  | .enqueueOutgoing calls => calls = .allOk
  | .workDequeue calls => calls = .allOk
  | .sendDequeue calls => calls = .allOk
  | _ => True

/-- What can have become of the datagram number `id`.
Source: none: infrastructure
Kind: D -/
inductive Outcome (s : Conn (Fifo Tagged) σ) (id : ℕ) : Prop
  /-- `udp_socket_send` was called for its message. -/
  | sent (x : Sent) (mem : x ∈ s.sent) (eq : x.message.id = id)
  /-- Its message was deleted by an overflow of one of the queues. -/
  | overflow (site : DeleteSite) (t : Tagged) (mem : (site, t) ∈ s.deleted)
      (queue : site = .overflowIncoming ∨ site = .overflowOutgoing) (eq : t.id = id)
  /-- `net_connection_write_data` rejected its message, which is too long. -/
  | rejected (t : Tagged) (mem : (.rejected, t) ∈ s.deleted)
      (long : maxPayload < t.body.header.length.toNat) (eq : t.id = id)
  /-- It is in a queue or in a thread's hands. -/
  | live (mem : id ∈ s.live)
  /-- `message_create` returned `NULL`. -/
  | unallocated (mem : id ∈ s.unallocated)

/-- A step only adds to what was sent, deleted or not allocated.
Source: `net_connection.c`, the two thread functions; `server_worker.c`, `server_worker_update`
Kind: L -/
theorem Moved.history_subset (hm : Moved fifoOps handler s l s') :
    s.sent ⊆ s'.sent ∧ s.deleted ⊆ s'.deleted ∧ s.unallocated ⊆ s'.unallocated := by
  cases hm <;> simp

/-- A step keeps the capacities.
Source: `net_connection.c`, the two thread functions; `server_worker.c`, `server_worker_update`
Kind: L -/
theorem Moved.capacity_eq (hm : Moved fifoOps handler s l s') :
    s'.incoming.capacity = s.incoming.capacity ∧ s'.outgoing.capacity = s.outgoing.capacity := by
  cases hm with
  | enqueueIncoming _ enqueue =>
      exact ⟨Fifo.capacity_of_enqueue (Option.some.inj enqueue), rfl⟩
  | enqueueOutgoing _ enqueue =>
      exact ⟨rfl, Fifo.capacity_of_enqueue (Option.some.inj enqueue)⟩
  | workEmpty _ dequeue => exact ⟨(Fifo.items_of_dequeue_none (Option.some.inj dequeue)).2.1, rfl⟩
  | workDequeue _ dequeue => exact ⟨(Fifo.items_of_dequeue_some (Option.some.inj dequeue)).2, rfl⟩
  | sendEmpty _ dequeue => exact ⟨rfl, (Fifo.items_of_dequeue_none (Option.some.inj dequeue)).2.1⟩
  | sendDequeue _ dequeue => exact ⟨rfl, (Fifo.items_of_dequeue_some (Option.some.inj dequeue)).2⟩
  | _ => exact ⟨rfl, rfl⟩

/-- A live datagram is waiting to be sent, waiting to be handled, or being received.
Source: `net_connection.c`, the two thread functions; `server_worker.c`, `server_worker_update`
Kind: L -/
theorem Conn.mem_live_iff {id : ℕ} : id ∈ s.live ↔
    (∃ t ∈ s.waiting, t.id = id) ∨ (∃ t ∈ s.requests, t.id = id) ∨ id ∈ s.recv.ids := by
  simp [Conn.live]

/-- A decoded message goes to the queue, unless an overflow deletes it or an older one.
Source: `message_queue.c`, `message_queue_enqueue`
Kind: L -/
theorem outcome_of_enqueue {q q' : Fifo Tagged} {t x : Tagged} {status : MessageQueueStatus}
    {dropped : List Tagged} (hcap : q.capacity ≠ 1)
    (he : fifoOps.enqueue .allOk q t = some (status, q', dropped)) (hx : x ∈ q.items ++ [t]) :
    x ∈ dropped ∨ x ∈ q'.items := by
  rw [← Fifo.append_of_enqueue EnqueueCalls.allOk_lock hcap (Option.some.inj he)] at hx
  exact List.mem_append.mp hx

/-- The receive thread hands its message over to the incoming queue.
Source: `net_connection.c`, `net_connection_receive_thread_func`
Kind: L -/
theorem Outcome.enqueueIncoming {t : Tagged} {status : MessageQueueStatus} {q : Fifo Tagged}
    {dropped : List Tagged} (hin : s.incoming.capacity ≠ 1) (pc : s.recv = .built t)
    (enqueue : fifoOps.enqueue .allOk s.incoming t = some (status, q, dropped)) {id : ℕ}
    (h : id ∈ s.live) :
    Outcome { s with
      incoming := q
      recv := .idle
      deleted := s.deleted ++
        deletions .overflowIncoming [.addToQueue, .receiveThread] status dropped t } id := by
  rw [Conn.mem_live_iff] at h
  have hplaces : (∃ x ∈ s.waiting, x.id = id) ∨ (∃ x ∈ s.work.unhandled, x.id = id) ∨
      ∃ x ∈ s.incoming.items ++ [t], x.id = id := by
    simpa [Conn.requests, RecvPc.ids, pc, or_and_right, exists_or, or_assoc, eq_comm] using h
  rcases hplaces with h | ⟨x, hx, rfl⟩ | ⟨x, hx, rfl⟩
  · exact .live (Conn.mem_live_iff.mpr (.inl h))
  · exact .live (Conn.mem_live_iff.mpr (.inr (.inl ⟨x, List.mem_append_left _ hx, rfl⟩)))
  · rcases outcome_of_enqueue hin enqueue hx with hd | hq
    · have hmem : (DeleteSite.overflowIncoming, x) ∈
          dropped.map fun m => (DeleteSite.overflowIncoming, m) := List.mem_map_of_mem hd
      exact .overflow .overflowIncoming x
        (List.mem_append_right _ (List.mem_append_left _ hmem)) (.inl rfl) rfl
    · exact .live (Conn.mem_live_iff.mpr (.inr (.inl ⟨x, List.mem_append_right _ hq, rfl⟩)))

/-- The update hands a reply over to the outgoing queue.
Source: `server_worker.c`, `server_worker_update`
Kind: L -/
theorem Outcome.enqueueOutgoing {left : ℕ} {t : Tagged} {status : MessageQueueStatus}
    {q : Fifo Tagged} {dropped : List Tagged} (hout : s.outgoing.capacity ≠ 1)
    (pc : s.work = .handled left t)
    (enqueue : fifoOps.enqueue .allOk s.outgoing t = some (status, q, dropped)) {id : ℕ}
    (h : id ∈ s.live) :
    Outcome { s with
      outgoing := q
      work := .loop left
      deleted := s.deleted ++ deletions .overflowOutgoing [.addToQueue] status dropped t } id := by
  rw [Conn.mem_live_iff] at h
  have hplaces : (∃ x ∈ s.send.hand, x.id = id) ∨ (∃ x ∈ s.outgoing.items ++ [t], x.id = id) ∨
      (∃ x ∈ s.incoming.items, x.id = id) ∨ id ∈ s.recv.ids := by
    simpa [Conn.waiting, Conn.requests, WorkPc.unhandled, WorkPc.answered, pc, or_and_right,
      exists_or, or_assoc] using h
  rcases hplaces with ⟨x, hx, rfl⟩ | ⟨x, hx, rfl⟩ | ⟨x, hx, rfl⟩ | h
  · exact .live (Conn.mem_live_iff.mpr
      (.inl ⟨x, List.mem_append_left _ (List.mem_append_left _ hx), rfl⟩))
  · rcases outcome_of_enqueue hout enqueue hx with hd | hq
    · have hmem : (DeleteSite.overflowOutgoing, x) ∈
          dropped.map fun m => (DeleteSite.overflowOutgoing, m) := List.mem_map_of_mem hd
      exact .overflow .overflowOutgoing x
        (List.mem_append_right _ (List.mem_append_left _ hmem)) (.inr rfl) rfl
    · exact .live (Conn.mem_live_iff.mpr
        (.inl ⟨x, List.mem_append_left _ (List.mem_append_right _ hq), rfl⟩))
  · exact .live (Conn.mem_live_iff.mpr (.inr (.inl ⟨x, List.mem_append_right _ hx, rfl⟩)))
  · exact .live (Conn.mem_live_iff.mpr (.inr (.inr h)))

/-- The message in the hands of the send thread, and those elsewhere.
Source: `net_connection.c`, `net_connection_send_thread_func`
Kind: L -/
theorem Conn.live_of_hand {t : Tagged} (hand : s.send.hand = [t]) {id : ℕ} (h : id ∈ s.live) :
    t.id = id ∨ (∃ x ∈ s.outgoing.items ++ s.work.answered, x.id = id) ∨
      (∃ x ∈ s.requests, x.id = id) ∨ id ∈ s.recv.ids := by
  rw [Conn.mem_live_iff] at h
  simpa [Conn.waiting, hand, or_and_right, exists_or, or_assoc] using h

/-- Where a message in a queue or in a thread's hands is after a step.
Source: `net_connection.c`, the two thread functions; `server_worker.c`, `server_worker_update`
Kind: P -/
theorem Moved.outcome_of_live (hm : Moved fifoOps handler s l s') (hok : l.PthreadOk)
    (hin : s.incoming.capacity ≠ 1) (hout : s.outgoing.capacity ≠ 1) {id : ℕ} (h : id ∈ s.live) :
    Outcome s' id := by
  have hlive := h
  rw [Conn.mem_live_iff] at h
  cases hm with
  | recvfrom pc =>
      refine .live (Conn.mem_live_iff.mpr ?_)
      rw [pc] at h
      rcases h with h | h | h
      · exact .inl h
      · exact .inr (.inl h)
      · simp [RecvPc.ids] at h
  | recvfromFailed pc => exact .live (Conn.mem_live_iff.mpr h)
  | createFailed pc create =>
      rcases h with h | h | h
      · exact .live (Conn.mem_live_iff.mpr (.inl h))
      · exact .live (Conn.mem_live_iff.mpr (.inr (.inl h)))
      · rw [pc] at h
        exact .unallocated (List.mem_append_right _ h)
  | createHeader pc create =>
      rw [pc] at h
      exact .live (Conn.mem_live_iff.mpr h)
  | readOwner pc =>
      rw [pc] at h
      exact .live (Conn.mem_live_iff.mpr h)
  | readData pc data =>
      rw [pc] at h
      exact .live (Conn.mem_live_iff.mpr h)
  | enqueueIncoming pc enqueue =>
      rw [show _ = EnqueueCalls.allOk from hok] at enqueue
      exact .enqueueIncoming hin pc enqueue hlive
  | updateCall pc =>
      refine .live (Conn.mem_live_iff.mpr ?_)
      simpa [Conn.waiting, Conn.requests, WorkPc.unhandled, WorkPc.answered, pc] using h
  | workEmpty pc dequeue =>
      obtain ⟨-, -, hsame⟩ := Fifo.items_of_dequeue_none (Option.some.inj dequeue)
      have hq := hsame (by rw [show _ = DequeueCalls.allOk from hok]; rfl)
      rw [hq]
      exact .live (Conn.mem_live_iff.mpr h)
  | workDequeue pc dequeue =>
      obtain ⟨hitems, -⟩ := Fifo.items_of_dequeue_some (Option.some.inj dequeue)
      refine .live (Conn.mem_live_iff.mpr ?_)
      simpa [Conn.waiting, Conn.requests, WorkPc.unhandled, WorkPc.answered, pc, hitems] using h
  | handle pc call =>
      -- the number passes from the request to the reply
      refine .live ?_
      simpa only [Conn.live, Conn.waiting, Conn.requests, WorkPc.unhandled, WorkPc.answered, pc,
        List.map_append, List.map_cons, List.map_nil, List.append_nil, List.nil_append,
        List.append_assoc] using hlive
  | enqueueOutgoing pc enqueue =>
      rw [show _ = EnqueueCalls.allOk from hok] at enqueue
      exact .enqueueOutgoing hout pc enqueue hlive
  | updateReturn pc done =>
      refine .live (Conn.mem_live_iff.mpr ?_)
      simpa [Conn.waiting, Conn.requests, WorkPc.unhandled, WorkPc.answered, pc] using h
  | sendEmpty pc dequeue =>
      obtain ⟨-, -, hsame⟩ := Fifo.items_of_dequeue_none (Option.some.inj dequeue)
      have hq := hsame (by rw [show _ = DequeueCalls.allOk from hok]; rfl)
      rw [hq]
      exact .live (Conn.mem_live_iff.mpr h)
  | sendDequeue pc dequeue =>
      obtain ⟨hitems, -⟩ := Fifo.items_of_dequeue_some (Option.some.inj dequeue)
      refine .live (Conn.mem_live_iff.mpr ?_)
      simpa [Conn.waiting, Conn.requests, SendPc.hand, pc, hitems] using h
  | @reject t socket socket' status pc header data failed =>
      rcases Conn.live_of_hand (by rw [pc]; rfl) hlive with rfl | h
      · exact .rejected t (List.mem_append_right _ (List.mem_singleton_self _))
          ((netConnectionWriteData_frame data).2.2 failed) rfl
      · exact .live (Conn.mem_live_iff.mpr h)
  | encode pc header data =>
      refine .live (Conn.mem_live_iff.mpr ?_)
      simpa [Conn.waiting, Conn.requests, SendPc.hand, pc] using h
  | address pc =>
      refine .live (Conn.mem_live_iff.mpr ?_)
      simpa [Conn.waiting, Conn.requests, SendPc.hand, pc] using h
  | @sendto t bytes dest pc send =>
      rcases Conn.live_of_hand (by rw [pc]; rfl) hlive with rfl | h
      · exact .sent ⟨t, bytes, dest⟩ (List.mem_append_right _ (List.mem_singleton_self _)) rfl
      · exact .live (Conn.mem_live_iff.mpr h)

/-- An outcome stays one.
Source: `net_connection.c`, the two thread functions; `server_worker.c`, `server_worker_update`
Kind: P -/
theorem Outcome.moved {id : ℕ} (h : Outcome s id) (hm : Moved fifoOps handler s l s')
    (hok : l.PthreadOk) (hin : s.incoming.capacity ≠ 1) (hout : s.outgoing.capacity ≠ 1) :
    Outcome s' id := by
  obtain ⟨hsent, hdeleted, hunallocated⟩ := hm.history_subset
  cases h with
  | sent x mem eq => exact .sent x (hsent mem) eq
  | overflow site t mem queue eq => exact .overflow site t (hdeleted mem) queue eq
  | rejected t mem long eq => exact .rejected t (hdeleted mem) long eq
  | live mem => exact hm.outcome_of_live hok hin hout mem
  | unallocated mem => exact .unallocated (hunallocated mem)

/-- A datagram that a step brings is in the receive thread's hands.
Source: `net_connection.c`, the two thread functions; `server_worker.c`, `server_worker_update`
Kind: L -/
theorem Flowed.lt_or_mem_recv (h : Flowed handler s s') {id : ℕ} (hid : id < s'.receipts.length) :
    id < s.receipts.length ∨ id ∈ s'.recv.ids := by
  cases h with
  | keep _ _ _ _ receipts => exact .inl (receipts ▸ hid)
  | receive r _ recv receipts =>
      rw [receipts, List.length_append, List.length_singleton] at hid
      rcases Nat.lt_succ_iff_lt_or_eq.mp hid with hlt | rfl
      · exact .inl hlt
      · exact .inr (by simp [recv])
  | enqueue _ _ _ _ _ _ receipts => exact .inl (receipts ▸ hid)
  | handle _ _ _ _ _ _ _ _ _ receipts => exact .inl (receipts ▸ hid)

/-- Every datagram received is accounted for; both queues have more than one slot.
Source: none: infrastructure
Kind: D -/
structure Conn.Accounted (s : Conn (Fifo Tagged) σ) : Prop where
  incoming : s.incoming.capacity ≠ 1
  outgoing : s.outgoing.capacity ≠ 1
  outcome : ∀ id < s.receipts.length, Outcome s id

/-- **A step** keeps every datagram accounted for.
Source: `net_connection.c`, the two thread functions; `server_worker.c`, `server_worker_update`
Kind: P -/
theorem Conn.Accounted.moved (h : s.Accounted) (hm : Moved fifoOps handler s l s')
    (hok : l.PthreadOk) : s'.Accounted := by
  obtain ⟨hin, hout⟩ := hm.capacity_eq
  refine ⟨hin ▸ h.incoming, hout ▸ h.outgoing, fun id hid => ?_⟩
  rcases hm.flowed.lt_or_mem_recv hid with hlt | hrecv
  · exact (h.outcome id hlt).moved hm hok h.incoming h.outgoing
  · exact .live (Conn.mem_live_iff.mpr (.inr (.inr hrecv)))

end flowed

/-! ## Every run -/

/-- At-most-once service in the order of receipt. Datagrams are numbered by their receipt.
Source: none: infrastructure
Kind: D -/
structure ServedInOrder (handler : Handler ε σ) (s : Conn (Fifo Tagged) σ) : Prop where
  /-- `udp_socket_send` is called in the order of receipt, at most once for a datagram. -/
  sends : (s.sent.map fun x => x.message.id).Pairwise (· < ·)
  /-- So is the worker function. -/
  calls : (s.handledLog.map Handled.id).Pairwise (· < ·)
  /-- A call is about the message decoded from the datagram of its number. -/
  decoded : ∀ h ∈ s.handledLog, s.Origin h.id h.before ∧
    ∃ env store store', handler env store h.before = some (h.after, store')
  /-- What is sent is the result of the call for its number. -/
  sent : ∀ x ∈ s.sent, ∃ h ∈ s.handledLog, h.id = x.message.id ∧ h.after = x.message.body
  /-- Each datagram received has one of the outcomes. -/
  outcome : ∀ id < s.receipts.length, Outcome s id

/-- What every step keeps.
Source: none: infrastructure
Kind: D -/
structure Conn.FlowInv (handler : Handler ε σ) (s : Conn (Fifo Tagged) σ) : Prop where
  sendOrder : Ordered s.sendOrder s.receipts.length
  handleOrder : Ordered s.handleOrder s.receipts.length
  traced : s.Traced handler
  accounted : s.Accounted

section runs

variable {s s' : Conn (Fifo Tagged) σ} {l : Label ε}

/-- **A step** keeps the whole invariant.
Source: `net_connection.c`, the two thread functions; `server_worker.c`, `server_worker_update`
Kind: P -/
theorem Conn.FlowInv.moved (h : s.FlowInv handler) (hok : l.PthreadOk)
    (hm : Moved fifoOps handler s l s') : s'.FlowInv handler :=
  ⟨h.sendOrder.advance hm.flowed.advance_sendOrder,
    h.handleOrder.advance hm.flowed.advance_handleOrder, h.traced.moved hm,
    h.accounted.moved hm hok⟩

/-- Nothing is on its way in a new connection.
Source: `net_connection.c`, the two thread functions; `server_worker.c`, `server_worker_update`
Kind: L -/
theorem Conn.Traced.init {socket : UdpSocket} {c₁ c₂ : ℕ} {store : σ} :
    (Conn.init socket ⟨c₁, []⟩ ⟨c₂, []⟩ store).Traced handler where
  decoding := trivial
  requests := fun _ ht => absurd ht List.not_mem_nil
  log := fun _ hx => absurd hx List.not_mem_nil
  replies := fun _ ht => absurd ht List.not_mem_nil

/-- The invariant holds for a new connection.
Source: `net_connection.c`, the two thread functions; `server_worker.c`, `server_worker_update`
Kind: L -/
theorem Conn.FlowInv.init {socket : UdpSocket} {c₁ c₂ : ℕ} {store : σ} (hc₁ : c₁ ≠ 1)
    (hc₂ : c₂ ≠ 1) : (Conn.init socket ⟨c₁, []⟩ ⟨c₂, []⟩ store).FlowInv handler where
  sendOrder := Ordered.nil 0
  handleOrder := Ordered.nil 0
  traced := Conn.Traced.init
  accounted := ⟨hc₁, hc₂, fun id hid => absurd hid (Nat.not_lt_zero id)⟩

/-- The invariant implies service in order.
Source: `net_connection.c`, the two thread functions; `server_worker.c`, `server_worker_update`
Kind: L -/
theorem Conn.FlowInv.servedInOrder (h : s.FlowInv handler) : ServedInOrder handler s where
  sends := by
    have hsub : (s.sent.map fun x => x.message.id).Sublist s.sendOrder := by
      simp [Conn.sendOrder, Conn.replies, Function.comp_def]
    exact (h.sendOrder.sublist hsub).increasing
  calls := by
    have hsub : (s.handledLog.map Handled.id).Sublist s.handleOrder := by
      simp [Conn.handleOrder]
    exact (h.handleOrder.sublist hsub).increasing
  decoded := h.traced.log
  sent := fun x hx =>
    h.traced.replies x.message (List.mem_append_left _ (List.mem_map_of_mem hx))
  outcome := h.accounted.outcome

/-- **Origin in every run**, whatever the `pthread_*` calls answer: a request was decoded from the
datagram of its number, a reply is what the worker function made of such a request.
Source: `net_connection.c`, the two thread functions; `server_worker.c`, `server_worker_update`
Kind: P -/
theorem traced_of_run {ok : Conn (MessageQueue Tagged) σ → Label ε → Prop}
    {calls₁ calls₂ : CreateCalls} {c₁ c₂ : ℤ} {q₁ q₂ : MessageQueue Tagged} (hc₁ : c₁ ≤ intMax)
    (hc₂ : c₂ ≤ intMax) (hq₁ : messageQueueCreate calls₁ c₁ = some q₁)
    (hq₂ : messageQueueCreate calls₂ c₂ = some q₂) {socket : UdpSocket} {store : σ}
    {ls : List (Label ε)} {s : Conn (MessageQueue Tagged) σ}
    (h : Run (step ringOps handler) ok (Conn.init socket q₁ q₂ store) ls s) :
    s.fifo.Traced handler := by
  have hrefines : Run (step fifoOps handler) (fun _ _ => True)
      (Conn.init socket ⟨c₁.toNat, []⟩ ⟨c₂.toNat, []⟩ store) ls s.fifo ∧ s.Valid :=
    run_refines_of_create (fun _ _ _ => trivial) hc₁ hc₂ hq₁ hq₂ h
  exact hrefines.1.invariant Conn.Traced.init
    fun _ _ _ htraced _ hs => htraced.moved (moved_of_step hs)

end runs

/-- **At-most-once service in order.** For every worker function, every sequence of datagrams and
every interleaving of the receive thread, the calls of `server_worker_update` and the send thread,
with queues of any capacity from 2 on and all `pthread_*` calls succeeding: the worker function
and `udp_socket_send` are called in the order of receipt and at most once for a datagram, what is
sent is what the worker function made of the message decoded from it, and a datagram without a
send was dropped by an overflow, rejected for its length, not allocated, or is still on its way.
Source: `net_connection.c`, the two thread functions; `server_worker.c`, `server_worker_update`;
`message_queue.c`
Kind: P
Hyps: the capacities are `int`s -/
theorem served_in_order {calls₁ calls₂ : CreateCalls} {c₁ c₂ : ℤ} {q₁ q₂ : MessageQueue Tagged}
    (hc₁ : 2 ≤ c₁ ∧ c₁ ≤ intMax) (hc₂ : 2 ≤ c₂ ∧ c₂ ≤ intMax)
    (hq₁ : messageQueueCreate calls₁ c₁ = some q₁) (hq₂ : messageQueueCreate calls₂ c₂ = some q₂)
    (socket : UdpSocket) (store : σ) {ls : List (Label ε)} {s : Conn (MessageQueue Tagged) σ}
    (h : Run (step ringOps handler) (fun _ l => l.PthreadOk) (Conn.init socket q₁ q₂ store) ls s) :
    ServedInOrder handler s.fifo := by
  have hrefines : Run (step fifoOps handler) (fun _ l => l.PthreadOk)
      (Conn.init socket ⟨c₁.toNat, []⟩ ⟨c₂.toNat, []⟩ store) ls s.fifo ∧ s.Valid :=
    run_refines_of_create (fun _ _ hok => hok) hc₁.2 hc₂.2 hq₁ hq₂ h
  have hinit : (Conn.init socket ⟨c₁.toNat, []⟩ ⟨c₂.toNat, []⟩ store).FlowInv handler :=
    Conn.FlowInv.init (by omega) (by omega)
  have hinv : s.fifo.FlowInv handler :=
    hrefines.1.invariant hinit fun _ _ _ hinv hok hs => hinv.moved hok (moved_of_step hs)
  exact hinv.servedInOrder

/-! ## Two runs of a new worker -/

/-- Whether the `pthread_*` calls of a step succeed can be computed.
Source: none: infrastructure
Kind: D -/
instance : DecidablePred (Label.PthreadOk (ε := ε))
  | .enqueueIncoming calls => inferInstanceAs (Decidable (calls = .allOk))
  | .enqueueOutgoing calls => inferInstanceAs (Decidable (calls = .allOk))
  | .workDequeue calls => inferInstanceAs (Decidable (calls = .allOk))
  | .sendDequeue calls => inferInstanceAs (Decidable (calls = .allOk))
  | .recvfrom _ | .recvfromFailed | .createHeader _ _ | .readOwner | .readData | .updateCall _
  | .handle _ | .updateReturn _ | .encode | .address | .sendto => .isTrue trivial

/-- `SERVER_MESSAGE_QUEUE_SIZE`.
Source: `server_worker.h`, `SERVER_MESSAGE_QUEUE_SIZE`
Kind: D -/
def serverMessageQueueSize : ℕ := 128

/-- An empty queue of a worker.
Source: `message_queue.c`, `message_queue_create`
Kind: D -/
def emptyQueue : MessageQueue Tagged :=
  ⟨List.replicate serverMessageQueueSize none, serverMessageQueueSize, 0, 0⟩

/-- It is what `message_queue_create` returns.
Source: `message_queue.c`, `message_queue_create`
Kind: L -/
theorem messageQueueCreate_emptyQueue :
    messageQueueCreate .allOk serverMessageQueueSize = some emptyQueue := rfl

/-- The connection of a new worker.
Source: `server_worker.c`, `server_worker_create`
Kind: D -/
def newWorker : Conn (MessageQueue Tagged) Journal :=
  Conn.init (udpSocketCreate ⟨0, 0, 0, 0⟩) emptyQueue emptyQueue ⟨9, List.Vector.replicate 9 0⟩

/-- A datagram with an unknown type and no data: the worker function echoes it.
Source: none: infrastructure
Kind: D -/
def unknownRequest (source : SockaddrIn) : Packet :=
  ⟨MessageHeader.bytes ⟨2, 0, ⟨0, 0, 0, 0⟩, 0⟩, source⟩

/-- The address of a client.
Source: none: infrastructure
Kind: D -/
def firstClient : SockaddrIn := ⟨2, 80, 1, 0⟩

/-- A request of this client up to the outgoing queue, with the answers to the `pthread_*` calls of
its two enqueues.
Source: none: infrastructure
Kind: D -/
def firstRequest (incoming outgoing : EnqueueCalls) : List (Label HandlerEnv) :=
  receiveLabels (unknownRequest firstClient) zeroMemory incoming ++ handleLabels quietEnv outgoing

/-- Two requests, of two clients: the second one is received before the first one is handled, and
handled before the first reply is sent.
Source: none: infrastructure
Kind: D -/
def twoRequests : List (Label HandlerEnv) :=
  receiveLabels (unknownRequest firstClient) zeroMemory .allOk ++
    receiveLabels (unknownRequest ⟨2, 81, 1, 0⟩) zeroMemory .allOk ++
    handleLabels quietEnv .allOk ++ handleLabels quietEnv .allOk ++ sendLabels true ++
    sendLabels true

/-- They are answered one after the other, in the order of their receipt.
Source: `net_connection.c`, the two thread functions; `server_worker.c`, `server_worker_update`
Kind: C -/
theorem served_in_order_two_requests :
    ∃ s, Run (step ringOps workerOnMessage) (fun _ l => l.PthreadOk) newWorker twoRequests s ∧
      s.sent.map (fun x => x.message.id) = [0, 1] ∧ ServedInOrder workerOnMessage s.fifo := by
  obtain ⟨s, hrun, hsent⟩ := Run.exists_of_exec
    (show (exec (step ringOps workerOnMessage) (fun _ l => l.PthreadOk) newWorker twoRequests).map
      (fun s => decide (s.sent.map (fun x => x.message.id) = [0, 1])) = some true by decide +kernel)
  exact ⟨s, hrun, of_decide_eq_true hsent, served_in_order (by decide) (by decide)
    messageQueueCreate_emptyQueue messageQueueCreate_emptyQueue _ _ hrun⟩

/-- **A request that is lost silently.** When `message_create` returns `NULL`, the datagram is
neither sent nor deleted nor in a queue nor in a thread's hands.
Source: `net_connection.c`, the two thread functions; `server_worker.c`, `server_worker_update`
Kind: C -/
theorem request_lost_without_memory :
    ∃ s, Run (step ringOps workerOnMessage) (fun _ l => l.PthreadOk) newWorker
        [.recvfrom (unknownRequest firstClient), .createHeader ⟨false, true⟩ zeroMemory] s ∧
      s.receipts.length = 1 ∧ s.sent.length = 0 ∧ s.deleted = [] ∧ s.fifo.live = [] := by
  obtain ⟨s, hrun, hlost⟩ := Run.exists_of_exec
    (show (exec (step ringOps workerOnMessage) (fun _ l => l.PthreadOk) newWorker
        [.recvfrom (unknownRequest firstClient), .createHeader ⟨false, true⟩ zeroMemory]).map
      (fun s => decide (s.receipts.length = 1 ∧ s.sent.length = 0 ∧ s.deleted = [] ∧
        s.fifo.live = [])) = some true by decide +kernel)
  exact ⟨s, hrun, of_decide_eq_true hlost⟩

end CpuMonitor.Server
