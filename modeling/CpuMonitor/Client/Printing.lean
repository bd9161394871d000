import CpuMonitor.Client.Node
import CpuMonitor.Server.Bounds
import CpuMonitor.Server.Burst

/-!
# What becomes of a reply

`client/client.c`, `print_received_messages` takes the messages that the receive thread has put into
the incoming queue of a connection and prints them, beside the receive thread, the send thread and
the main thread.

* **The places** `ClientNode.places`: where the datagrams are that a connection has received. They
  are numbered in the order of their receipt.
* **The invariant** `ClientNode.PrintInv`: every datagram is in one place, and those that are on the
  way to the printer are in order. `PrintInv.moved` — every step of every thread keeps it.
* **The ledger** `ClientNode.LedgerInv`: what the calls of `message_delete` were for.
* `replies_printed_once` — hence every reply is printed at most once and in the order of receipt; it
  is not printed only if there was no memory for it, if it was cleared from a full queue, or if it
  has not been printed yet. No message that was printed is ever deleted, at any of the places that
  call `message_delete`.
-/

namespace CpuMonitor.Client

open CpuMonitor.Lib CpuMonitor.Network CpuMonitor.Server

/-! ## The places -/

/-- The numbers of the datagrams that were printed.
Source: none: infrastructure
Kind: D -/
def ClientNode.printedIds {Q : Type} (s : ClientNode Q) : List ℕ :=
  s.printed.map fun x => x.message.id

/-- The places of a datagram: it was printed, cleared from a full queue, waits in the queue, is in
the hands of the receive thread, or there was no memory for it.
Source: none: infrastructure
Kind: D -/
def ClientNode.places (s : ClientNode (Fifo Tagged)) : Multiset ℕ :=
  (s.printedIds : Multiset ℕ) + (s.conn.droppedIncoming.map Tagged.id : List ℕ) +
    (s.conn.incoming.items.map Tagged.id : List ℕ) + (s.conn.recv.ids : List ℕ) +
    (s.conn.unallocated : List ℕ)

/-- The datagrams that were printed or will be, in this order.
Source: none: infrastructure
Kind: D -/
def ClientNode.printOrder (s : ClientNode (Fifo Tagged)) : List ℕ :=
  s.printedIds ++ s.conn.incoming.items.map Tagged.id ++ s.conn.recv.ids

/-- The invariant: every datagram received is in exactly one place, and none overtakes another.
Source: none: infrastructure
Kind: D -/
structure ClientNode.PrintInv (s : ClientNode (Fifo Tagged)) : Prop where
  capacity : s.conn.incoming.capacity ≠ 1
  places : s.places = Multiset.range s.conn.receipts.length
  ordered : Ordered s.printOrder s.conn.receipts.length

section invariant

variable {server : SockaddrIn} {s s' : ClientNode (Fifo Tagged)}

/-- Nothing has been received and nothing printed yet.
Source: `client.c`, `print_received_messages`; `net_connection.c`, the two thread functions
Kind: L -/
theorem ClientNode.PrintInv.init {socket : UdpSocket} {c₁ c₂ : ℕ} (hc : c₁ ≠ 1) :
    (ClientNode.mk (Conn.init socket ⟨c₁, []⟩ ⟨c₂, []⟩ ()) 0 []).PrintInv where
  capacity := hc
  places := rfl
  ordered := .nil 0

/-- A step that moves no datagram.
Source: `client.c`, `print_received_messages`; `net_connection.c`, the two thread functions
Kind: L -/
theorem ClientNode.PrintInv.frame (h : s.PrintInv) (hprinted : s'.printed = s.printed)
    (hincoming : s'.conn.incoming = s.conn.incoming) (hids : s'.conn.recv.ids = s.conn.recv.ids)
    (hreceipts : s'.conn.receipts = s.conn.receipts)
    (hunallocated : s'.conn.unallocated = s.conn.unallocated)
    (hdropped : s'.conn.droppedIncoming = s.conn.droppedIncoming) : s'.PrintInv where
  capacity := hincoming ▸ h.capacity
  places := by
    have hplaces : s'.places = s.places := by
      rw [ClientNode.places, ClientNode.printedIds, hprinted, hincoming, hids, hunallocated,
        hdropped]
      rfl
    rw [hplaces, hreceipts]
    exact h.places
  ordered := by
    have horder : s'.printOrder = s.printOrder := by
      rw [ClientNode.printOrder, ClientNode.printedIds, hprinted, hincoming, hids]
      rfl
    rw [horder, hreceipts]
    exact h.ordered

/-- A datagram arrives.
Source: `client.c`, `print_received_messages`; `net_connection.c`, the two thread functions
Kind: L -/
theorem ClientNode.PrintInv.recvfrom (h : s.PrintInv) (pc : s.conn.recv = .idle)
    (socket : UdpSocket) (receipt : Receipt) :
    ClientNode.PrintInv { s with
      conn := { s.conn with
        socket := socket
        recv := .received s.conn.receipts.length
        receipts := s.conn.receipts ++ [receipt] } } where
  capacity := h.capacity
  places := by
    have hplaces := h.places
    simp only [ClientNode.places, pc, RecvPc.ids, Multiset.coe_nil, add_zero] at hplaces
    rw [List.length_append, List.length_singleton, Multiset.range_succ, ← hplaces,
      ← Multiset.singleton_add]
    show _ + _ + _ + (([s.conn.receipts.length] : List ℕ) : Multiset ℕ) + _ = _
    rw [Multiset.coe_singleton]
    simp only [ClientNode.printedIds, Conn.droppedIncoming]
    abel
  ordered := by
    have hordered := h.ordered
    rw [ClientNode.printOrder, pc, RecvPc.ids, List.append_nil] at hordered
    rw [List.length_append, List.length_singleton]
    exact hordered.advance .arrival

/-- There is no memory for a datagram.
Source: `client.c`, `print_received_messages`; `net_connection.c`, the two thread functions
Kind: L -/
theorem ClientNode.PrintInv.createFailed (h : s.PrintInv) {id : ℕ}
    (pc : s.conn.recv = .received id) :
    ClientNode.PrintInv { s with
      conn := { s.conn with recv := .idle, unallocated := s.conn.unallocated ++ [id] } } where
  capacity := h.capacity
  places := by
    have hplaces := h.places
    simp only [ClientNode.places, pc, RecvPc.ids] at hplaces
    show _ + _ + _ + (([] : List ℕ) : Multiset ℕ) + ((s.conn.unallocated ++ [id] : List ℕ)) = _
    rw [← hplaces, ← Multiset.coe_add, Multiset.coe_nil, add_zero]
    simp only [ClientNode.printedIds, Conn.droppedIncoming]
    abel
  ordered := by
    have hordered := h.ordered
    rw [ClientNode.printOrder, pc] at hordered
    exact hordered.sublist (List.Sublist.append_left (List.nil_sublist _) _)

/-- A message is put into the queue, and some of the oldest may have to leave it.
Source: `client.c`, `print_received_messages`; `net_connection.c`, the two thread functions
Kind: L -/
theorem ClientNode.PrintInv.enqueued (h : s.PrintInv) {t : Tagged} (pc : s.conn.recv = .built t)
    {q : Fifo Tagged} {dropped : List Tagged} {deleted : List (DeleteSite × Tagged)}
    (hcapacity : q.capacity = s.conn.incoming.capacity)
    (happend : dropped ++ q.items = s.conn.incoming.items ++ [t])
    (hdropped : ({ s.conn with
        incoming := q, recv := .idle, deleted := deleted }
          : Conn (Fifo Tagged) Unit).droppedIncoming = s.conn.droppedIncoming ++ dropped) :
    ClientNode.PrintInv { s with
      conn := { s.conn with incoming := q, recv := .idle, deleted := deleted } } where
  capacity := by
    show q.capacity ≠ 1
    rw [hcapacity]
    exact h.capacity
  places := by
    have hplaces := h.places
    have hids : ((dropped.map Tagged.id : List ℕ) : Multiset ℕ) + (q.items.map Tagged.id : List ℕ) =
        (s.conn.incoming.items.map Tagged.id : List ℕ) + ([t.id] : List ℕ) := by
      rw [Multiset.coe_add, Multiset.coe_add, ← List.map_append, happend, List.map_append]
      rfl
    simp only [ClientNode.places, pc, RecvPc.ids] at hplaces
    rw [ClientNode.places, hdropped, List.map_append, ← Multiset.coe_add]
    show _ + (_ + _) + (q.items.map Tagged.id : List ℕ) + (([] : List ℕ) : Multiset ℕ) + _ = _
    rw [Multiset.coe_nil, add_zero, ← hplaces]
    calc _ = (s.printedIds : Multiset ℕ) + (s.conn.droppedIncoming.map Tagged.id : List ℕ) +
          (((dropped.map Tagged.id : List ℕ) : Multiset ℕ) + (q.items.map Tagged.id : List ℕ)) +
            (s.conn.unallocated : List ℕ) := by
          simp only [ClientNode.printedIds]
          abel
      _ = _ := by
          rw [hids]
          abel
  ordered := by
    have hordered := h.ordered
    rw [ClientNode.printOrder, pc, List.append_assoc] at hordered
    refine hordered.sublist ?_
    show ((s.printedIds ++ q.items.map Tagged.id) ++ []).Sublist
      (s.printedIds ++ (s.conn.incoming.items.map Tagged.id ++ [t.id]))
    have hsub : (q.items.map Tagged.id).Sublist
        (s.conn.incoming.items.map Tagged.id ++ [t.id]) := by
      have hlast := (List.sublist_append_right dropped q.items).map Tagged.id
      rw [happend, List.map_append] at hlast
      exact hlast
    rw [List.append_nil]
    exact hsub.append_left _

/-- A message is printed.
Source: `client.c`, `print_received_messages`; `net_connection.c`, the two thread functions
Kind: L -/
theorem ClientNode.PrintInv.print (h : s.PrintInv) {q : Fifo Tagged} {t : Tagged}
    (hitems : s.conn.incoming.items = t :: q.items)
    (hcapacity : q.capacity = s.conn.incoming.capacity) (text : List UInt8) :
    ClientNode.PrintInv { s with
      conn := { s.conn with incoming := q }
      printed := s.printed ++ [⟨t, text⟩] } where
  capacity := by
    show q.capacity ≠ 1
    rw [hcapacity]
    exact h.capacity
  places := by
    have hplaces := h.places
    rw [ClientNode.places, hitems, List.map_cons, ← Multiset.cons_coe, ← Multiset.singleton_add]
      at hplaces
    rw [ClientNode.places, ClientNode.printedIds, List.map_append, ← Multiset.coe_add]
    show _ + (([t.id] : List ℕ) : Multiset ℕ) + _ + (q.items.map Tagged.id : List ℕ) + _ + _ = _
    rw [Multiset.coe_singleton, ← hplaces]
    simp only [ClientNode.printedIds, Conn.droppedIncoming]
    abel
  ordered := by
    have hordered := h.ordered
    rw [ClientNode.printOrder, hitems] at hordered
    have horder : ClientNode.printOrder { s with
        conn := { s.conn with incoming := q }
        printed := s.printed ++ [⟨t, text⟩] } =
        s.printedIds ++ (t :: q.items).map Tagged.id ++ s.conn.recv.ids := by
      simp [ClientNode.printOrder, ClientNode.printedIds]
    rw [horder]
    exact hordered

/-- A step of the receive or the send thread.
Source: `client.c`, `print_received_messages`; `net_connection.c`, the two thread functions
Kind: P -/
theorem ClientNode.PrintInv.thread (h : s.PrintInv) {label : Label Empty}
    (hthreads : ofThreads label = true) (hok : label.PthreadOk) {conn : Conn (Fifo Tagged) Unit}
    (hm : Moved fifoOps noHandler s.conn label conn) :
    ClientNode.PrintInv { s with conn := conn } := by
  cases hm with
  | recvfrom pc => exact h.recvfrom pc _ _
  | recvfromFailed pc => exact h
  | createFailed pc create => exact h.createFailed pc
  | createHeader pc create => exact h.frame rfl rfl (by rw [pc]; rfl) rfl rfl rfl
  | readOwner pc => exact h.frame rfl rfl (by rw [pc]; rfl) rfl rfl rfl
  | readData pc data => exact h.frame rfl rfl (by rw [pc]; rfl) rfl rfl rfl
  | @enqueueIncoming calls t status q dropped pc enqueue =>
      obtain rfl : calls = .allOk := hok
      have henqueue := Option.some.inj enqueue
      refine h.enqueued pc (Fifo.capacity_of_enqueue henqueue)
        (Fifo.append_of_enqueue rfl h.capacity henqueue) ?_
      have hsites : ∀ x ∈ [DeleteSite.addToQueue, .receiveThread], x ≠ .overflowIncoming := by
        decide
      rw [Conn.droppedIncoming, List.filterMap_append, filterMap_deletions hsites, if_pos rfl]
      rfl
  | updateCall pc => cases hthreads
  | workEmpty pc dequeue => cases hthreads
  | workDequeue pc dequeue => cases hthreads
  | handle pc call => cases hthreads
  | enqueueOutgoing pc enqueue => cases hthreads
  | updateReturn pc done => cases hthreads
  | sendEmpty pc dequeue => exact h.frame rfl rfl rfl rfl rfl rfl
  | sendDequeue pc dequeue => exact h.frame rfl rfl rfl rfl rfl rfl
  | reject pc header data failed =>
      exact h.frame rfl rfl rfl rfl rfl (by simp [Conn.droppedIncoming])
  | encode pc header data => exact h.frame rfl rfl rfl rfl rfl rfl
  | address pc => exact h.frame rfl rfl rfl rfl rfl rfl
  | sendto pc send => exact h.frame rfl rfl rfl rfl rfl (by simp [Conn.droppedIncoming])

/-- **Every step keeps the invariant.**
Source: `client.c`, `print_received_messages`; `net_connection.c`, the two thread functions
Kind: P -/
theorem ClientNode.PrintInv.moved (h : s.PrintInv) {l : ClientLabel} (hok : l.PthreadOk)
    (hthreads : ∀ label, l = .thread label → ofThreads label = true)
    (hm : ClientMoved fifoOps server s l s') : s'.PrintInv := by
  cases hm with
  | thread moved => exact h.thread (hthreads _ rfl) hok moved
  | sendFailed => exact h
  | @send calls pid status q dropped enqueue =>
      refine h.frame rfl rfl rfl rfl rfl ?_
      have hsites : ∀ x ∈ [DeleteSite.addToQueue], x ≠ .overflowIncoming := by decide
      show (s.conn.deleted ++ deletions .overflowOutgoing [.addToQueue] status dropped
        ⟨s.requests, pidMessage server pid⟩).filterMap _ = s.conn.droppedIncoming
      rw [List.filterMap_append, filterMap_deletions hsites, if_neg (by decide), List.append_nil]
      rfl
  | @printEmpty calls q dequeue =>
      obtain rfl : calls = .allOk := hok
      obtain ⟨-, -, hsame⟩ := Fifo.items_of_dequeue_none (Option.some.inj dequeue)
      exact h.frame rfl (hsame rfl) rfl rfl rfl rfl
  | @print calls q t text dequeue printed =>
      obtain ⟨hitems, hcapacity⟩ := Fifo.items_of_dequeue_some (Option.some.inj dequeue)
      exact h.print hitems hcapacity text

end invariant

/-! ## The ledger -/

/-- What the client deletes. The datagrams received and the requests are both numbered from 0, so
the entry says which of them it is about: a message that was cleared from the full incoming queue,
or a request of this client on its way out.
Source: `net_connection.c`, `net_connection_send_thread_func`; `message_queue.c`,
`message_queue_enqueue`
Kind: D -/
inductive DeletedByClient (server : SockaddrIn) : DeleteSite × Tagged → Prop
  | cleared (t : Tagged) : DeletedByClient server (.overflowIncoming, t)
  | request (site : DeleteSite) (t : Tagged)
      (outgoing : site ∈ [DeleteSite.overflowOutgoing, .rejected, .afterSend]) (pid : BitVec 32)
      (body : t.body = pidMessage server pid) : DeletedByClient server (site, t)

/-- Every entry of the deletion ledger is one of these.
Source: none: infrastructure
Kind: D -/
structure ClientNode.LedgerInv (server : SockaddrIn) (s : ClientNode (Fifo Tagged)) : Prop where
  node : s.Inv (fun _ => True) (fun _ => True) server (fun _ => True)
  deleted : ∀ d ∈ s.conn.deleted, DeletedByClient server d

section ledger

variable {server : SockaddrIn} {s s' : ClientNode (Fifo Tagged)}

/-- An enqueue whose `pthread_*` calls succeed deletes nothing but what it clears.
Source: `client.c`, `print_received_messages`; `net_connection.c`, the two thread functions
Kind: L -/
theorem deletions_of_enqueue_allOk {overflow : DeleteSite} {sites : List DeleteSite}
    {q q' : Fifo Tagged} {t : Tagged} {status : MessageQueueStatus} {dropped : List Tagged}
    (h : fifoOps.enqueue .allOk q t = some (status, q', dropped)) :
    deletions overflow sites status dropped t = dropped.map fun m => (overflow, m) := by
  have hstatus : status = .success := by
    have henqueue : q.enqueue .allOk t = (status, q', dropped) := Option.some.inj h
    rw [Fifo.enqueue, if_neg (by simp)] at henqueue
    split_ifs at henqueue
    · exact (Prod.mk.inj henqueue).1.symm
    · exact (Prod.mk.inj henqueue).1.symm
  rw [deletions, hstatus, if_neg (by simp), List.append_nil]

/-- A message that waits to be sent is a request.
Source: `client.c`, `print_received_messages`; `net_connection.c`, the two thread functions
Kind: L -/
theorem ClientNode.LedgerInv.request (h : s.LedgerInv server) {site : DeleteSite} {t : Tagged}
    (hsite : site ∈ [DeleteSite.overflowOutgoing, .rejected, .afterSend])
    (ht : t ∈ s.conn.replies) : DeletedByClient server (site, t) := by
  obtain ⟨pid, -, hbody⟩ := h.node.outgoing t ht
  exact .request site t hsite pid hbody

/-- A step of the receive or the send thread deletes what it may.
Source: `client.c`, `print_received_messages`; `net_connection.c`, the two thread functions
Kind: P -/
theorem ClientNode.LedgerInv.thread (h : s.LedgerInv server) {label : Label Empty}
    (hok : label.PthreadOk) {conn : Conn (Fifo Tagged) Unit}
    (hm : Moved fifoOps noHandler s.conn label conn) :
    ∀ d ∈ conn.deleted, DeletedByClient server d := by
  cases hm with
  | @enqueueIncoming calls t status q dropped pc enqueue =>
      obtain rfl : calls = .allOk := hok
      rw [deletions_of_enqueue_allOk enqueue]
      intro d hd
      rcases List.mem_append.mp hd with hold | hnew
      · exact h.deleted d hold
      · obtain ⟨m, -, rfl⟩ := List.mem_map.mp hnew
        exact .cleared m
  | @enqueueOutgoing calls left t status q dropped pc enqueue =>
      obtain rfl : calls = .allOk := hok
      rw [deletions_of_enqueue_allOk enqueue]
      intro d hd
      rcases List.mem_append.mp hd with hold | hnew
      · exact h.deleted d hold
      · obtain ⟨m, hm, rfl⟩ := List.mem_map.mp hnew
        have hmem := (Fifo.sublist_of_enqueue (Option.some.inj enqueue)).subset
          (List.mem_append_left _ hm)
        refine h.request (by simp) (List.mem_append_right _ ?_)
        rw [Conn.waiting, pc, List.append_assoc]
        exact List.mem_append_right _ hmem
  | reject pc header data failed =>
      intro d hd
      rcases List.mem_append.mp hd with hold | hnew
      · exact h.deleted d hold
      · rw [List.mem_singleton.mp hnew]
        exact h.request (by simp) (by simp [Conn.replies, Conn.waiting, SendPc.hand, pc])
  | sendto pc send =>
      intro d hd
      rcases List.mem_append.mp hd with hold | hnew
      · exact h.deleted d hold
      · rw [List.mem_singleton.mp hnew]
        exact h.request (by simp) (by simp [Conn.replies, Conn.waiting, SendPc.hand, pc])
  | _ => exact h.deleted

/-- **Every step keeps the ledger.**
Source: `client.c`, `print_received_messages`; `net_connection.c`, the two thread functions
Kind: P -/
theorem ClientNode.LedgerInv.moved (h : s.LedgerInv server) {l : ClientLabel} (hok : l.PthreadOk)
    (hm : ClientMoved fifoOps server s l s') : s'.LedgerInv server := by
  refine ⟨h.node.moved (fun _ _ => trivial) trivial hm (fun _ _ => trivial)
    (fun _ _ _ => trivial), ?_⟩
  cases hm with
  | thread moved => exact h.thread hok moved
  | sendFailed => exact h.deleted
  | @send calls pid status q dropped enqueue =>
      rw [show calls.enqueue = .allOk from hok] at enqueue
      intro d hd
      rw [deletions_of_enqueue_allOk enqueue] at hd
      rcases List.mem_append.mp hd with hold | hnew
      · exact h.deleted d hold
      · obtain ⟨m, hm, rfl⟩ := List.mem_map.mp hnew
        have hmem := (Fifo.sublist_of_enqueue (Option.some.inj enqueue)).subset
          (List.mem_append_left _ hm)
        rcases List.mem_append.mp hmem with hitem | hself
        · refine h.request (by simp) ?_
          simp [Conn.replies, Conn.waiting, hitem]
        · rw [List.mem_singleton.mp hself]
          exact .request _ _ (by simp) pid rfl
  | printEmpty dequeue => exact h.deleted
  | print dequeue printed => exact h.deleted

/-- A request is no message that was printed: that one lies in a block of the receive thread.
Source: `client.c`, `print_received_messages`; `net_connection.c`, the two thread functions
Kind: L -/
theorem ClientNode.LedgerInv.ne_printed (h : s.LedgerInv server) {x : Printed} (hx : x ∈ s.printed)
    {t : Tagged} {pid : BitVec 32} (hbody : t.body = pidMessage server pid) : t ≠ x.message := by
  rintro rfl
  obtain ⟨⟨r, -, hdecoded⟩, -⟩ := h.node.printed x hx
  have hblock := length_data_of_decodedFrom hdecoded
  have hpid : (pidMessage server pid).data.length = sizeofPid := length_leBytes _ _
  rw [hbody, hpid] at hblock
  exact absurd hblock (by decide)

end ledger

/-! ## Whole runs -/

/-- A connection of a client that was just started.
Source: `client.c`, `client_create_context`, `client_start`
Kind: D -/
def ClientNode.started (socket : UdpSocket) : ClientNode (MessageQueue Tagged) :=
  ⟨.init socket (createdQueue Tagged 5) (createdQueue Tagged 5) (), 0, []⟩

section runs

variable {server : SockaddrIn} {socket : UdpSocket} {ls : List ClientLabel}
  {s : ClientNode (MessageQueue Tagged)}

/-- The invariants along a run over ring buffers.
Source: `client.c`, `print_received_messages`; `net_connection.c`, the two thread functions
Kind: L -/
theorem printInv_of_run
    (h : Run (clientNodeStep ringOps server) (fun _ l => l.PthreadOk) (.started socket) ls s) :
    s.fifo.PrintInv ∧ s.fifo.LedgerInv server := by
  have hvalid : (createdQueue Tagged 5).Valid :=
    (createdQueue_reachable (by decide) (by decide)).valid.2
  have hfifo : (ClientNode.started socket).fifo =
      ⟨Conn.init socket ⟨5, []⟩ ⟨5, []⟩ (), 0, []⟩ := by
    have hempty : (createdQueue Tagged 5).fifo = ⟨5, []⟩ := by
      rw [MessageQueue.fifo, contents_createdQueue]
      rfl
    simp only [ClientNode.fifo, ClientNode.started, Conn.fifo, Conn.init, hempty]
  have hinit : (ClientNode.started socket).fifo.PrintInv ∧
      (ClientNode.started socket).fifo.LedgerInv server := by
    rw [hfifo]
    exact ⟨.init (by decide), .init, fun _ hd => absurd hd List.not_mem_nil⟩
  have hinv := h.invariant
    (I := fun s => s.conn.Valid ∧ s.fifo.PrintInv ∧ s.fifo.LedgerInv server)
    ⟨⟨hvalid, hvalid⟩, hinit⟩
    (by
      rintro t l t' ⟨hvalid, hinv, hledger⟩ hok hstep
      have hthreads : ∀ label, l = .thread label → ofThreads label = true := by
        rintro label rfl
        simp only [clientNodeStep] at hstep
        split_ifs at hstep with hthreads
        exact hthreads
      obtain ⟨hmoved, hvalid'⟩ := (clientMoved_of_nodeStep hstep).refines hvalid
      exact ⟨hvalid', hinv.moved hok hthreads hmoved, hledger.moved hok hmoved⟩)
  exact hinv.2

/-- **Every reply is printed at most once, and in order.** In every run of the four threads that use
a connection of a client: the datagrams it has printed are in the order of their receipt, without
repetition. Every datagram received is in exactly one of five places: printed, cleared from the full
incoming queue, waiting in it, in the hands of the receive thread, or without memory. Every call of
`message_delete` was for a received message that was cleared from the queue and is not among those
printed, or for a request of this client; so no message that was printed is ever deleted.
Source: `client.c`, `print_received_messages`, `client_send_pid_message`; `net_connection.c`, the
two thread functions; `message_queue.c`, `message_queue_enqueue`
Kind: P
Hyps: the `pthread_*` calls succeed -/
theorem replies_printed_once
    (h : Run (clientNodeStep ringOps server) (fun _ l => l.PthreadOk) (.started socket) ls s) :
    s.printedIds.Pairwise (· < ·) ∧
      s.fifo.places = Multiset.range s.conn.receipts.length ∧
      (∀ d ∈ s.conn.deleted, DeletedByClient server d ∧
        (d.1 = .overflowIncoming → d.2.id ∉ s.printedIds)) ∧
      ∀ x ∈ s.printed, ∀ d ∈ s.conn.deleted, d.2 ≠ x.message := by
  obtain ⟨hinv, hledger⟩ := printInv_of_run h
  have hplaces : s.fifo.places = Multiset.range s.conn.receipts.length := hinv.places
  have hcleared : ∀ d ∈ s.conn.deleted, d.1 = .overflowIncoming → d.2.id ∉ s.printedIds := by
    -- no number is in two places
    have hnodup : s.fifo.places.Nodup := hplaces ▸ Multiset.nodup_range _
    rw [ClientNode.places, add_assoc, add_assoc, add_assoc] at hnodup
    have hdisjoint := (Multiset.nodup_add.mp hnodup).2.2
    rintro ⟨site, t⟩ hd rfl hprinted
    have hdropped : t ∈ s.conn.droppedIncoming := List.mem_filterMap.mpr ⟨_, hd, rfl⟩
    refine Multiset.disjoint_left.mp hdisjoint (Multiset.mem_coe.mpr hprinted) ?_
    exact Multiset.mem_add.mpr (.inl (Multiset.mem_coe.mpr (List.mem_map_of_mem hdropped)))
  refine ⟨?_, hplaces, ?_, ?_⟩
  · have hordered := hinv.ordered.increasing
    rw [ClientNode.printOrder, List.append_assoc] at hordered
    exact (List.pairwise_append.mp hordered).1
  · intro d hd
    exact ⟨hledger.deleted d hd, hcleared d hd⟩
  · intro x hx d hd
    have hentry := hledger.deleted d hd
    cases hentry with
    | cleared t =>
        rintro rfl
        exact hcleared _ hd rfl (List.mem_map_of_mem hx)
    | request site t outgoing pid body => exact hledger.ne_printed hx body

end runs

/-- A datagram arrives and is printed.
Source: none: infrastructure
Kind: D -/
def printedReply : List ClientLabel :=
  (receiveLabels (unknownRequest firstClient) zeroMemory .allOk).map .thread ++ [.print .allOk]

/-- A request is sent; two datagrams arrive and are printed one after the other.
Source: none: infrastructure
Kind: D -/
def requestAndReplies : List ClientLabel :=
  [.send ⟨.allOk, zeroMemory, .allOk⟩ 7] ++ (sendLabels true).map .thread ++ printedReply ++
    printedReply

/-- Two replies are printed in order, and only the request is deleted.
Source: `client.c`, `print_received_messages`; `net_connection.c`, the two thread functions
Kind: C -/
theorem replies_printed_once_two :
    ∃ s, Run (clientNodeStep ringOps firstClient) (fun _ l => l.PthreadOk)
        (.started (udpSocketCreate ⟨0, 0, 0, 0⟩)) requestAndReplies s ∧
      s.printedIds = [0, 1] ∧ s.conn.deleted.length = 1 ∧
      s.fifo.places = Multiset.range s.conn.receipts.length ∧
      ∀ x ∈ s.printed, ∀ d ∈ s.conn.deleted, d.2 ≠ x.message := by
  obtain ⟨s, hrun, hprinted⟩ := Run.exists_of_exec
    (show (exec (clientNodeStep ringOps firstClient) (fun _ l => l.PthreadOk)
        (.started (udpSocketCreate ⟨0, 0, 0, 0⟩)) requestAndReplies).map
      (fun s => decide (s.printedIds = [0, 1] ∧ s.conn.deleted.length = 1)) = some true by
      decide +kernel)
  obtain ⟨hids, hdeleted⟩ := of_decide_eq_true hprinted
  obtain ⟨-, hplaces, -, hnever⟩ := replies_printed_once hrun
  exact ⟨s, hrun, hids, hdeleted, hplaces, hnever⟩

end CpuMonitor.Client
