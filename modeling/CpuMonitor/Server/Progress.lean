import CpuMonitor.Server.Bounds
import CpuMonitor.Server.Update

/-!
# A worker answers what it has

`Server.Flow` says what can have become of a datagram, but not that it moves on at all. This file
says that it does: with nothing new arriving, the three loops of a connection have only so much to
do, none of them gets stuck before it is done, and what is done then is all.

* **Working off** `Conn.WorksOff`: the steps that move something on. No datagram arrives, the worker
  is called again when it has returned, and no loop looks at an empty queue: such a look changes
  nothing, and a loop may take any number of them.
* **The work left** `Conn.backlog`: a bound for the steps of this kind. Each of them lowers it
  (`Moved.backlog_lt`), overflows included.
* **Nobody is stuck** `WorkerReady`: what every step of a worker keeps, and what the next step of
  each loop needs (`exists_recv_step`, `exists_work_step`, `exists_send_step`).
* `backlog_worked_off` — from every reachable state, every run that works off ends after at most
  `Conn.backlog` steps, and not before every datagram received was answered, was cleared from a full
  queue or had got no memory.
-/

namespace CpuMonitor.Server

open CpuMonitor.Lib CpuMonitor.Network

variable {σ ε : Type} {handler : Handler ε σ}

/-! ## The work left -/

/-- A step that moves something on, with all its `pthread_*` calls successful.
Source: `net_connection.c`, the two thread functions; `server_worker.c`, `server_worker_update`;
`server.c`, `worker_process_job` (the loop around the update)
Kind: D -/
def Conn.WorksOff (s : Conn (Fifo Tagged) σ) : Label ε → Prop
  | .recvfrom _ | .recvfromFailed => False
  | .updateCall maxMessages => 0 < maxMessages
  | .updateReturn isRunning => isRunning = true
  | .workDequeue calls => calls = .allOk ∧ s.incoming.items ≠ []
  | .sendDequeue calls => calls = .allOk ∧ s.outgoing.items ≠ []
  | .enqueueIncoming calls => calls = .allOk
  | .enqueueOutgoing calls => calls = .allOk
  | .createHeader _ _ | .readOwner | .readData | .handle _ | .encode | .address | .sendto => True

/-- Whether a step moves something on can be computed.
Source: none: infrastructure
Kind: D -/
instance (s : Conn (Fifo Tagged) σ) : DecidablePred (s.WorksOff (ε := ε))
  | .recvfrom _ | .recvfromFailed => .isFalse id
  | .updateCall maxMessages => inferInstanceAs (Decidable (0 < maxMessages))
  | .updateReturn isRunning => inferInstanceAs (Decidable (isRunning = true))
  | .workDequeue calls => inferInstanceAs (Decidable (calls = .allOk ∧ s.incoming.items ≠ []))
  | .sendDequeue calls => inferInstanceAs (Decidable (calls = .allOk ∧ s.outgoing.items ≠ []))
  | .enqueueIncoming calls => inferInstanceAs (Decidable (calls = .allOk))
  | .enqueueOutgoing calls => inferInstanceAs (Decidable (calls = .allOk))
  | .createHeader _ _ | .readOwner | .readData | .handle _ | .encode | .address | .sendto =>
      .isTrue trivial

/-- Such a step has its `pthread_*` calls succeed.
Source: `net_connection.c`, the two thread functions; `server_worker.c`, `server_worker_update`
Kind: L -/
theorem Conn.WorksOff.pthreadOk {s : Conn (Fifo Tagged) σ} {l : Label ε} (h : s.WorksOff l) :
    l.PthreadOk := by
  cases l with
  | enqueueIncoming calls => exact h
  | enqueueOutgoing calls => exact h
  | workDequeue calls => exact h.1
  | sendDequeue calls => exact h.1
  | _ => trivial

/-- The steps that the message in the receive thread's hands has before it: four at most up to the
queue, and those of a message in the incoming queue.
Source: none: infrastructure
Kind: D -/
def RecvPc.backlog : RecvPc → ℕ
  | .idle => 0
  | .received _ => 13
  | .header _ => 12
  | .owned _ => 11
  | .built _ => 10

/-- The same for the worker. A message in its hands may be the last one of the call, which then
returns and is made again.
Source: none: infrastructure
Kind: D -/
def WorkPc.backlog : WorkPc → ℕ
  | .out => 1
  | .loop 0 => 2
  | .loop (_ + 1) => 0
  | .got _ _ => 8
  | .handled _ _ => 7

/-- The same for the send thread.
Source: none: infrastructure
Kind: D -/
def SendPc.backlog : SendPc → ℕ
  | .idle => 0
  | .taken _ => 3
  | .encoded _ => 2
  | .addressed _ => 1

/-- A bound for the steps that are left if nothing arrives.
Source: none: infrastructure
Kind: D -/
def Conn.backlog (s : Conn (Fifo Tagged) σ) : ℕ :=
  s.recv.backlog + 9 * s.incoming.items.length + s.work.backlog + 4 * s.outgoing.items.length +
    s.send.backlog

section backlog

variable {s s' : Conn (Fifo Tagged) σ} {l : Label ε}

/-- The loop of an update counts for at most two.
Source: `net_connection.c`, the two thread functions; `server_worker.c`, `server_worker_update`
Kind: L -/
theorem WorkPc.backlog_loop_le (left : ℕ) : (WorkPc.loop left).backlog ≤ 2 := by
  cases left with
  | zero => exact le_rfl
  | succ left => exact Nat.zero_le _

/-- An enqueue makes a queue longer by at most one.
Source: `net_connection.c`, the two thread functions; `server_worker.c`, `server_worker_update`
Kind: L -/
theorem length_le_of_enqueue {q q' : Fifo Tagged} {calls : EnqueueCalls} {t : Tagged}
    {status : MessageQueueStatus} {dropped : List Tagged}
    (h : fifoOps.enqueue calls q t = some (status, q', dropped)) :
    q'.items.length ≤ q.items.length + 1 := by
  have hsublist := (Fifo.sublist_of_enqueue (Option.some.inj h)).length_le
  rw [List.length_append, List.length_append, List.length_singleton] at hsublist
  omega

/-- **Every step that works off lowers the backlog.**
Source: `net_connection.c`, the two thread functions; `server_worker.c`, `server_worker_update`
Kind: P -/
theorem Moved.backlog_lt (hm : Moved fifoOps handler s l s') (hl : s.WorksOff l) :
    s'.backlog < s.backlog := by
  cases hm with
  | recvfrom pc => exact hl.elim
  | recvfromFailed pc => exact hl.elim
  | createFailed pc create => simp [Conn.backlog, RecvPc.backlog, pc]
  | createHeader pc create => simp [Conn.backlog, RecvPc.backlog, pc]
  | readOwner pc => simp [Conn.backlog, RecvPc.backlog, pc]
  | readData pc data => simp [Conn.backlog, RecvPc.backlog, pc]
  | enqueueIncoming pc enqueue =>
      have hlength := length_le_of_enqueue enqueue
      simp only [Conn.backlog, RecvPc.backlog, pc]
      omega
  | updateCall pc =>
      obtain ⟨left, rfl⟩ := Nat.exists_eq_succ_of_ne_zero (Nat.pos_iff_ne_zero.mp hl)
      simp [Conn.backlog, WorkPc.backlog, pc]
  | workEmpty pc dequeue =>
      obtain ⟨rfl, hitems⟩ := hl
      exact absurd (Fifo.items_eq_nil_of_dequeue_none (Option.some.inj dequeue)).1 hitems
  | workDequeue pc dequeue =>
      have hitems := (Fifo.items_of_dequeue_some (Option.some.inj dequeue)).1
      simp only [Conn.backlog, WorkPc.backlog, pc, hitems, List.length_cons]
      omega
  | handle pc call => simp [Conn.backlog, WorkPc.backlog, pc]
  | @enqueueOutgoing calls left t status q dropped pc enqueue =>
      have hlength := length_le_of_enqueue enqueue
      have hloop := WorkPc.backlog_loop_le left
      have hhanded : (WorkPc.handled left t).backlog = 7 := rfl
      simp only [Conn.backlog, pc]
      omega
  | updateReturn pc done =>
      obtain rfl := done.resolve_right (by rw [show _ = true from hl]; decide)
      simp [Conn.backlog, WorkPc.backlog, pc]
  | sendEmpty pc dequeue =>
      obtain ⟨rfl, hitems⟩ := hl
      exact absurd (Fifo.items_eq_nil_of_dequeue_none (Option.some.inj dequeue)).1 hitems
  | sendDequeue pc dequeue =>
      have hitems := (Fifo.items_of_dequeue_some (Option.some.inj dequeue)).1
      simp only [Conn.backlog, SendPc.backlog, pc, hitems, List.length_cons]
      omega
  | reject pc header data failed => simp [Conn.backlog, SendPc.backlog, pc]
  | encode pc header data => simp [Conn.backlog, SendPc.backlog, pc]
  | address pc => simp [Conn.backlog, SendPc.backlog, pc]
  | sendto pc send => simp [Conn.backlog, SendPc.backlog, pc]

/-- Without new datagrams the receipts stay.
Source: `net_connection.c`, the two thread functions; `server_worker.c`, `server_worker_update`
Kind: L -/
theorem Moved.receipts_eq (hm : Moved fifoOps handler s l s') (hl : s.WorksOff l) :
    s'.receipts = s.receipts := by
  cases hm with
  | recvfrom pc => exact hl.elim
  | _ => rfl

end backlog

/-! ## What the next step needs -/

/-- What every step of a worker keeps; `snprintf` and `realloc` succeed.
Source: none: infrastructure
Kind: D -/
structure WorkerReady (s : Conn (MessageQueue Tagged) Journal) : Prop where
  valid : s.Valid
  fitsIncoming : s.incoming.capacity - 1 + s.incoming.capacity / 2 ≤ intMax
  fitsOutgoing : s.outgoing.capacity - 1 + s.outgoing.capacity / 2 ≤ intMax
  store : s.store.WellFormed
  flow : s.fifo.FlowInv workerOnMessageOk
  /-- The send path has rejected nothing. -/
  accepted : ∀ t, (.rejected, t) ∉ s.deleted

/-- `worker_on_message` returns.
Source: `net_connection.c`, the two thread functions; `server_worker.c`, `server_worker_update`
Kind: L -/
theorem serves_workerOnMessageOk :
    Serves workerOnMessageOk Journal.WellFormed fun m => maxPayload ≤ m.data.length :=
  fun env => serves_workerOnMessage env.1

section ready

variable {s s' : Conn (MessageQueue Tagged) Journal} {l : Label OkEnv}

/-- A message before the worker function has a whole receive buffer.
Source: `net_connection.c`, the two thread functions; `server_worker.c`, `server_worker_update`
Kind: L -/
theorem WorkerReady.le_data (h : WorkerReady s) {t : Tagged} (ht : t ∈ s.fifo.requests) :
    maxPayload ≤ t.body.data.length := by
  obtain ⟨r, -, hdecoded⟩ := h.flow.traced.requests t ht
  rw [length_data_of_decodedFrom hdecoded]
  decide

/-- A message in the send thread's hands is accepted.
Source: `net_connection.c`, the two thread functions; `server_worker.c`, `server_worker_update`
Kind: L -/
theorem WorkerReady.encodable (h : WorkerReady s) {t : Tagged} (ht : t ∈ s.send.hand) :
    Encodable t.body := by
  refine h.flow.traced.encodable (List.mem_append_right _ ?_)
  exact List.mem_append_left _ (List.mem_append_left _ ht)

/-- The deletions of an enqueue are not for a message's length.
Source: `net_connection.c`, the two thread functions; `server_worker.c`, `server_worker_update`
Kind: L -/
theorem not_rejected_mem_deletions {overflow : DeleteSite} {sites : List DeleteSite}
    (hoverflow : overflow ≠ .rejected) (hsites : .rejected ∉ sites) (status : MessageQueueStatus)
    (dropped : List Tagged) (m t : Tagged) :
    (.rejected, t) ∉ deletions overflow sites status dropped m := by
  intro hmem
  rcases List.mem_append.mp hmem with hmem | hmem
  · obtain ⟨x, -, heq⟩ := List.mem_map.mp hmem
    exact hoverflow (Prod.mk.inj heq).1
  · split_ifs at hmem with hfailed
    · obtain ⟨site, hsite, heq⟩ := List.mem_map.mp hmem
      exact hsites ((Prod.mk.inj heq).1 ▸ hsite)
    · exact absurd hmem List.not_mem_nil

/-- The send path never rejects a message.
Source: `net_connection.c`, the two thread functions; `server_worker.c`, `server_worker_update`
Kind: L -/
theorem WorkerReady.accepted_moved (h : WorkerReady s)
    (hm : Moved ringOps workerOnMessageOk s l s') (t : Tagged) : (.rejected, t) ∉ s'.deleted := by
  cases hm with
  | enqueueIncoming pc enqueue =>
      refine fun hmem => (List.mem_append.mp hmem).elim (h.accepted t) ?_
      exact not_rejected_mem_deletions (by decide) (by decide) _ _ _ t
  | enqueueOutgoing pc enqueue =>
      refine fun hmem => (List.mem_append.mp hmem).elim (h.accepted t) ?_
      exact not_rejected_mem_deletions (by decide) (by decide) _ _ _ t
  | reject pc header data failed =>
      -- the message is one that the send path accepts
      have hencodable := h.encodable (by rw [pc]; exact List.mem_singleton_self _)
      obtain ⟨s₁, s₂, hheader, hdata⟩ := hencodable.write s.socket
      obtain rfl := Option.some.inj (hheader.symm.trans header)
      exact absurd (Prod.mk.inj (Option.some.inj (data.symm.trans hdata))).1 failed
  | sendto pc send =>
      refine fun hmem => (List.mem_append.mp hmem).elim (h.accepted t) ?_
      simp
  | _ => exact h.accepted t

/-- **Every step keeps it.**
Source: `net_connection.c`, the two thread functions; `server_worker.c`, `server_worker_update`
Kind: P -/
theorem WorkerReady.moved (h : WorkerReady s) (hok : l.PthreadOk)
    (hs : step ringOps workerOnMessageOk s l = some s') : WorkerReady s' := by
  obtain ⟨hm, hvalid⟩ := (moved_of_step hs).refines h.valid
  obtain ⟨hincoming, houtgoing⟩ := hm.capacity_eq
  refine ⟨hvalid, ?_, ?_, ?_, h.flow.moved hok hm, h.accepted_moved (moved_of_step hs)⟩
  · rw [show s'.incoming.capacity = s.incoming.capacity from hincoming]
    exact h.fitsIncoming
  · rw [show s'.outgoing.capacity = s.outgoing.capacity from houtgoing]
    exact h.fitsOutgoing
  · rcases hm.store_cases with hsame | ⟨env, t, m, ht, call⟩
    · rw [show s'.store = s.store from hsame]
      exact h.store
    · obtain ⟨m', store', hcall, hstore⟩ :=
        serves_workerOnMessageOk env s.store t.body h.store (h.le_data ht)
      obtain ⟨-, rfl⟩ := Prod.mk.inj (Option.some.inj (hcall.symm.trans call))
      exact hstore

/-! ## Nobody is stuck -/

/-- The receive thread with a datagram in its hands.
Source: `net_connection.c`, the two thread functions; `server_worker.c`, `server_worker_update`
Kind: L -/
theorem WorkerReady.exists_recv_step (h : WorkerReady s) (hpc : s.recv ≠ .idle) :
    ∃ l s', s.fifo.WorksOff l ∧ step ringOps workerOnMessageOk s l = some s' := by
  cases hrecv : s.recv with
  | idle => exact absurd hrecv hpc
  | received id =>
      cases hcreate : messageCreate .allOk zeroMemory .none receiveCapacity with
      | none => exact ⟨.createHeader .allOk zeroMemory, _, trivial,
          step_of_moved (.createFailed hrecv hcreate)⟩
      | some new => exact ⟨.createHeader .allOk zeroMemory, _, trivial,
          step_of_moved (.createHeader hrecv hcreate)⟩
  | header t => exact ⟨.readOwner, _, trivial, step_of_moved (.readOwner hrecv)⟩
  | owned t =>
      have hdecoding := h.flow.traced.decoding
      simp only [Conn.Decoding, Conn.fifo, hrecv] at hdecoding
      obtain ⟨r, -, -, owner, fresh, hbody⟩ := hdecoding
      have hblock : t.body.data = fresh.block udpSocketBufferSize := by rw [hbody]
      have hdata := receiveData_eq (s := s.socket) (hblock ▸ maxPayload_le_block fresh)
      exact ⟨.readData, _, trivial, step_of_moved (.readData hrecv hdata)⟩
  | built t =>
      obtain ⟨⟨status, q, dropped⟩, henqueue⟩ :=
        h.valid.1.exists_enqueue h.fitsIncoming .allOk t
      exact ⟨.enqueueIncoming .allOk, _, rfl, step_of_moved (.enqueueIncoming hrecv henqueue)⟩

/-- The worker with a message in its hands or in its queue.
Source: `net_connection.c`, the two thread functions; `server_worker.c`, `server_worker_update`
Kind: L -/
theorem WorkerReady.exists_work_step (h : WorkerReady s)
    (hwork : s.fifo.requests ≠ [] ∨ s.work.answered ≠ []) :
    ∃ l s', s.fifo.WorksOff l ∧ step ringOps workerOnMessageOk s l = some s' := by
  cases hpc : s.work with
  | out => exact ⟨.updateCall 100, _, Nat.succ_pos 99, step_of_moved (.updateCall hpc)⟩
  | loop left =>
      cases left with
      | zero => exact ⟨.updateReturn true, _, rfl, step_of_moved (.updateReturn hpc (.inl rfl))⟩
      | succ left =>
          have hitems : s.fifo.incoming.items ≠ [] := by
            rcases hwork with hwork | hwork
            · simpa [Conn.requests, Conn.fifo, WorkPc.unhandled, hpc] using hwork
            · simp [WorkPc.answered, hpc] at hwork
          have hin : s.incoming.Represents s.incoming.contents := h.valid.1
          obtain ⟨r, q, hdequeue, -⟩ := hin.dequeueNonblocking .allOk
          cases r with
          | none => exact ⟨.workDequeue .allOk, _, ⟨rfl, hitems⟩,
              step_of_moved (.workEmpty hpc hdequeue)⟩
          | some t => exact ⟨.workDequeue .allOk, _, ⟨rfl, hitems⟩,
              step_of_moved (.workDequeue hpc hdequeue)⟩
  | got left t =>
      have ht : t ∈ s.fifo.requests := by
        rw [Conn.requests, show s.fifo.work = .got left t from hpc]
        exact List.mem_cons_self
      obtain ⟨m, store, call, -⟩ :=
        serves_workerOnMessageOk ⟨quietEnv, quietEnv_allOk⟩ s.store t.body h.store (h.le_data ht)
      exact ⟨.handle _, _, trivial, step_of_moved (.handle hpc call)⟩
  | handled left t =>
      obtain ⟨⟨status, q, dropped⟩, henqueue⟩ :=
        h.valid.2.exists_enqueue h.fitsOutgoing .allOk t
      exact ⟨.enqueueOutgoing .allOk, _, rfl, step_of_moved (.enqueueOutgoing hpc henqueue)⟩

/-- The send thread with a message in its hands or in its queue.
Source: `net_connection.c`, the two thread functions; `server_worker.c`, `server_worker_update`
Kind: L -/
theorem WorkerReady.exists_send_step (h : WorkerReady s)
    (hsend : s.send.hand ≠ [] ∨ s.fifo.outgoing.items ≠ []) :
    ∃ l s', s.fifo.WorksOff l ∧ step ringOps workerOnMessageOk s l = some s' := by
  cases hpc : s.send with
  | idle =>
      have hitems : s.fifo.outgoing.items ≠ [] :=
        hsend.resolve_left fun hhand => hhand (by rw [hpc]; rfl)
      have hout : s.outgoing.Represents s.outgoing.contents := h.valid.2
      obtain ⟨r, q, hdequeue, -⟩ := hout.dequeueNonblocking .allOk
      cases r with
      | none => exact ⟨.sendDequeue .allOk, _, ⟨rfl, hitems⟩,
          step_of_moved (.sendEmpty hpc hdequeue)⟩
      | some t => exact ⟨.sendDequeue .allOk, _, ⟨rfl, hitems⟩,
          step_of_moved (.sendDequeue hpc hdequeue)⟩
  | taken t =>
      have hencodable := h.encodable (by rw [hpc]; exact List.mem_singleton_self _)
      obtain ⟨s₁, s₂, hheader, hdata⟩ := hencodable.write s.socket
      exact ⟨.encode, _, trivial, step_of_moved (.encode hpc hheader hdata)⟩
  | encoded t => exact ⟨.address, _, trivial, step_of_moved (.address hpc)⟩
  | addressed t =>
      have hencodable := h.encodable (by rw [hpc]; exact List.mem_singleton_self _)
      have hbuffer : 0 + (t.body.header.length.toNat + sizeofMessageHeader) ≤
          s.socket.outcomingBuffer.toList.length := by
        have hsize := sizeofMessageHeader_add_maxPayload
        have hfits := hencodable.fits
        rw [List.Vector.toList_length]
        omega
      obtain ⟨⟨bytes, dest⟩, hload⟩ :
          ∃ r, udpSocketSend s.socket (t.body.header.length.toNat + sizeofMessageHeader) =
            some r := by
        rw [udpSocketSend, load_of_le hbuffer]
        exact ⟨_, rfl⟩
      exact ⟨.sendto, _, trivial, step_of_moved (.sendto hpc hload)⟩

/-- **A loop can move as long as a message is under way.**
Source: `net_connection.c`, the two thread functions; `server_worker.c`, `server_worker_update`
Kind: P -/
theorem WorkerReady.exists_step (h : WorkerReady s) (hlive : s.fifo.live ≠ []) :
    ∃ l s', s.fifo.WorksOff l ∧ step ringOps workerOnMessageOk s l = some s' := by
  by_cases hrecv : s.recv = .idle
  · by_cases hwork : s.fifo.requests ≠ [] ∨ s.work.answered ≠ []
    · exact h.exists_work_step hwork
    · obtain ⟨hrequests, hanswered⟩ := not_or.mp hwork
      rw [not_not] at hrequests hanswered
      refine h.exists_send_step ?_
      by_contra hsend
      obtain ⟨hhand, hitems⟩ := not_or.mp hsend
      rw [not_not] at hhand hitems
      refine hlive ?_
      have hhand' : s.fifo.send.hand = [] := hhand
      have hanswered' : s.fifo.work.answered = [] := hanswered
      have hids : s.fifo.recv.ids = [] := by
        rw [show s.fifo.recv = .idle from hrecv]
        rfl
      rw [Conn.live, Conn.waiting, hhand', hitems, hanswered', hrequests, hids]
      rfl
  · exact h.exists_recv_step hrecv

end ready

/-! ## Every run -/

/-- What becomes of a datagram that is no longer under way: a reply was sent, a full queue was
cleared of its message, or there was no memory for one.
Source: none: infrastructure
Kind: D -/
inductive Settled (s : Conn (Fifo Tagged) σ) (id : ℕ) : Prop
  | answered (x : Sent) (mem : x ∈ s.sent) (eq : x.message.id = id)
  | cleared (site : DeleteSite) (t : Tagged) (mem : (site, t) ∈ s.deleted)
      (queue : site = .overflowIncoming ∨ site = .overflowOutgoing) (eq : t.id = id)
  | unallocated (mem : id ∈ s.unallocated)

/-- With nothing under way every datagram is settled.
Source: `net_connection.c`, the two thread functions; `server_worker.c`, `server_worker_update`
Kind: L -/
theorem WorkerReady.settled {s : Conn (MessageQueue Tagged) Journal} (h : WorkerReady s)
    (hlive : s.fifo.live = []) {id : ℕ} (hid : id < s.receipts.length) : Settled s.fifo id := by
  cases h.flow.accounted.outcome id hid with
  | sent x mem eq => exact .answered x mem eq
  | overflow site t mem queue eq => exact .cleared site t mem queue eq
  | rejected t mem long eq => exact absurd mem (h.accepted t)
  | live mem => exact absurd (hlive ▸ mem) List.not_mem_nil
  | unallocated mem => exact .unallocated mem

section runs

variable {calls₁ calls₂ : CreateCalls} {c₁ c₂ : ℕ} {q₁ q₂ : MessageQueue Tagged}

/-- A worker that was just created.
Source: `net_connection.c`, the two thread functions; `server_worker.c`, `server_worker_update`
Kind: L -/
theorem WorkerReady.init (hc₁ : 2 ≤ c₁) (hc₂ : 2 ≤ c₂) (hfit₁ : c₁ - 1 + c₁ / 2 ≤ intMax)
    (hfit₂ : c₂ - 1 + c₂ / 2 ≤ intMax) (hq₁ : messageQueueCreate calls₁ c₁ = some q₁)
    (hq₂ : messageQueueCreate calls₂ c₂ = some q₂) (socket : UdpSocket) {journal : Journal}
    (hj : journal.WellFormed) : WorkerReady (Conn.init socket q₁ q₂ journal) := by
  obtain ⟨hcap₁, hrep₁⟩ := represents_of_messageQueueCreate hq₁ (by omega)
  obtain ⟨hcap₂, hrep₂⟩ := represents_of_messageQueueCreate hq₂ (by omega)
  rw [Int.toNat_natCast] at hcap₁ hcap₂
  refine ⟨⟨hrep₁.valid, hrep₂.valid⟩, ?_, ?_, hj, ?_, fun t => List.not_mem_nil⟩
  · rw [show (Conn.init socket q₁ q₂ journal).incoming.capacity = c₁ from hcap₁]
    exact hfit₁
  · rw [show (Conn.init socket q₁ q₂ journal).outgoing.capacity = c₂ from hcap₂]
    exact hfit₂
  · have hinit : (Conn.init socket q₁ q₂ journal).fifo =
        Conn.init socket ⟨c₁, []⟩ ⟨c₂, []⟩ journal := by
      rw [← hcap₁, ← hcap₂, ← hrep₁.fifo_eq, ← hrep₂.fifo_eq]
      rfl
    rw [hinit]
    exact .init (by omega) (by omega)

/-- **A worker answers what it has.** From every state that a worker can reach, with any datagrams
and every interleaving of its three loops: if nothing more arrives, then every run of steps that
move something on is at most `Conn.backlog` long. When such a run cannot go on, nothing is in a
queue or in the hands of a loop, and every datagram received was answered, unless a full queue was
cleared of it or it had got no memory; else one of the loops has a next step.
Source: `net_connection.c`, the two thread functions; `server_worker.c`, `server_worker_update`;
`server.c`, `worker_on_message`, `worker_process_job`; `message_queue.c`
Kind: P
Hyps: the capacities are such that no index overflows; the `pthread_*` calls, `snprintf` and
`realloc` succeed -/
theorem backlog_worked_off (hc₁ : 2 ≤ c₁) (hc₂ : 2 ≤ c₂) (hfit₁ : c₁ - 1 + c₁ / 2 ≤ intMax)
    (hfit₂ : c₂ - 1 + c₂ / 2 ≤ intMax) (hq₁ : messageQueueCreate calls₁ c₁ = some q₁)
    (hq₂ : messageQueueCreate calls₂ c₂ = some q₂) {socket : UdpSocket} {journal : Journal}
    (hj : journal.WellFormed) {ls ls' : List (Label OkEnv)}
    {s s' : Conn (MessageQueue Tagged) Journal}
    (h : Run (step ringOps workerOnMessageOk) (fun _ l => l.PthreadOk)
      (Conn.init socket q₁ q₂ journal) ls s)
    (h' : Run (step ringOps workerOnMessageOk) (fun t l => t.fifo.WorksOff l) s ls' s') :
    ls'.length ≤ s.fifo.backlog ∧
      ((s'.fifo.live = [] ∧ ∀ id < s.receipts.length, Settled s'.fifo id) ∨
        ∃ l s'', s'.fifo.WorksOff l ∧ step ringOps workerOnMessageOk s' l = some s'') := by
  have hready : WorkerReady s :=
    h.invariant (.init hc₁ hc₂ hfit₁ hfit₂ hq₁ hq₂ socket hj)
      fun _ _ _ hinv hok hs => hinv.moved hok hs
  -- one step: the invariant is kept, the receipts stay and the backlog falls
  obtain ⟨⟨hready', hreceipts⟩, hcount⟩ :=
    Run.countP_add_le (fun _ => true) (fun t : Conn (MessageQueue Tagged) Journal => t.fifo.backlog)
      (I := fun t => WorkerReady t ∧ t.receipts = s.receipts) ⟨hready, rfl⟩
      (fun t l t' hinv hl hs => by
        obtain ⟨hm, -⟩ := (moved_of_step hs).refines hinv.1.valid
        have hlt := hm.backlog_lt hl
        refine ⟨⟨hinv.1.moved hl.pthreadOk hs, ?_⟩, ?_⟩
        · exact (show t'.receipts = t.receipts from hm.receipts_eq hl).trans hinv.2
        · rw [if_pos rfl]
          exact hlt) h'
  rw [List.countP_true] at hcount
  refine ⟨by omega, ?_⟩
  by_cases hlive : s'.fifo.live = []
  · refine .inl ⟨hlive, ?_⟩
    intro id hid
    exact hready'.settled hlive (by rw [hreceipts]; exact hid)
  · exact .inr (hready'.exists_step hlive)

end runs

/-- A journal without room for a record.
Source: none: infrastructure
Kind: D -/
def noRoom : Journal := ⟨9, ⟨[8, 0, 0, 0, 0, 0, 0, 0, 0], rfl⟩⟩

/-- This journal is well formed.
Source: `net_connection.c`, the two thread functions; `server_worker.c`, `server_worker_update`
Kind: L -/
theorem noRoom_wellFormed : noRoom.WellFormed :=
  ⟨by norm_num [noRoom], [], holds_of_journalCreate (by norm_num [noRoom]) rfl⟩

/-- A new worker with this journal.
Source: none: infrastructure
Kind: D -/
def roomlessWorker : Conn (MessageQueue Tagged) Journal :=
  Conn.init (udpSocketCreate ⟨0, 0, 0, 0⟩) emptyQueue emptyQueue noRoom

/-- The steps of the three loops for one message.
Source: none: infrastructure
Kind: D -/
def workOffLabels : List (Label OkEnv) :=
  [.createHeader .allOk zeroMemory, .readOwner, .readData, .enqueueIncoming .allOk] ++
    handleLabels ⟨quietEnv, quietEnv_allOk⟩ .allOk ++ sendLabels true

/-- A datagram that has just arrived is answered.
Source: `net_connection.c`, the two thread functions; `server_worker.c`, `server_worker_update`
Kind: C -/
theorem backlog_worked_off_one :
    ∃ s s', Run (step ringOps workerOnMessageOk) (fun _ l => l.PthreadOk) roomlessWorker
        [.recvfrom (unknownRequest firstClient)] s ∧
      Run (step ringOps workerOnMessageOk) (fun t l => t.fifo.WorksOff l) s workOffLabels s' ∧
      s'.fifo.live = [] ∧ workOffLabels.length ≤ s.fifo.backlog := by
  obtain ⟨s, hrun, hs⟩ := Run.exists_of_exec
    (show (exec (step ringOps workerOnMessageOk) (fun _ l => l.PthreadOk) roomlessWorker
        [.recvfrom (unknownRequest firstClient)]).map
      (fun s => decide ((exec (step ringOps workerOnMessageOk) (fun t l => t.fifo.WorksOff l) s
        workOffLabels).map (fun s' => decide (s'.fifo.live = [])) = some true)) = some true by
      decide +kernel)
  obtain ⟨s', hrun', hlive⟩ := Run.exists_of_exec (of_decide_eq_true hs)
  have hbound := (backlog_worked_off (by decide) (by decide) (by decide) (by decide)
    messageQueueCreate_emptyQueue messageQueueCreate_emptyQueue noRoom_wellFormed hrun hrun').1
  exact ⟨s, s', hrun, hrun', of_decide_eq_true hlive, hbound⟩

end CpuMonitor.Server
