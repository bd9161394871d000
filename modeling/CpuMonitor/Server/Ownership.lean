import CpuMonitor.Server.Flow

/-!
# Who deletes a message

A message belongs to whoever is to delete it. It passes from the receive thread to the incoming
queue, to the worker, to the outgoing queue and to the send thread; each of them deletes on its own
error paths, and `net_connection_add_to_queue` deletes what it could not enqueue.

* `Conn.ledger` lists the numbers of the deleted messages and of those in a queue or in a thread's
  hands. As long as every hand-over is clean (`HandsOver`), no number occurs twice in it
  (`Conn.ledger` is `Distinct`).
* A hand-over is not clean when both sides think the message is theirs: after any failure on the
  incoming queue these are `net_connection_add_to_queue` and the receive thread, after a failed
  signal or unlock on the outgoing one `net_connection_add_to_queue` and the queue itself.
* `owned_iff_handsOver` — no message is deleted twice or deleted while it is in a queue as long as
  every hand-over is clean, and the first one that is not breaks this.
-/

namespace CpuMonitor.Server

open CpuMonitor.Lib CpuMonitor.Network

variable {σ ε : Type} {handler : Handler ε σ}

/-! ## The ledger -/

/-- The numbers of the messages passed to `message_delete`, in order.
Source: none: infrastructure
Kind: D -/
def Conn.deletedIds {Q : Type} (s : Conn Q σ) : List ℕ := s.deleted.map fun d => d.2.id

/-- The numbers of the deleted messages, and of those in a queue or in a thread's hands.
Source: none: infrastructure
Kind: D -/
def Conn.ledger (s : Conn (Fifo Tagged) σ) : List ℕ := s.deletedIds ++ s.live

/-- No message is deleted twice; a deleted message is in no queue, and no queue has returned it.
Source: none: infrastructure
Kind: D -/
structure Conn.Owned (s : Conn (Fifo Tagged) σ) : Prop where
  once : s.deletedIds.Nodup
  queued : ∀ id ∈ s.deletedIds, id ∉ (s.incoming.items ++ s.outgoing.items).map Tagged.id
  returned : ∀ id ∈ s.deletedIds, id ∉ (s.work.unhandled ++ s.send.hand).map Tagged.id

/-- The hand-over of a message to a queue is clean. On the incoming queue every failure makes both
`net_connection_add_to_queue` and the receive thread delete the message; on the outgoing queue a
failure after the insertion makes `net_connection_add_to_queue` delete a queued message (with a
single slot there is no insertion to speak of).
Source: none: infrastructure
Kind: D -/
def HandsOver (s : Conn (Fifo Tagged) σ) : Label ε → Prop
  | .enqueueIncoming calls => calls.lock = true ∧ enqueueStatus calls = .success
  | .enqueueOutgoing calls =>
      calls.lock = false ∨ enqueueStatus calls = .success ∨ s.outgoing.capacity = 1
  | _ => True

/-- The numbers of the messages an enqueue deletes.
Source: `net_connection.c`, `net_connection_add_to_queue` and the two thread functions
Kind: L -/
theorem map_id_deletions (overflow : DeleteSite) (sites : List DeleteSite)
    (status : MessageQueueStatus) (dropped : List Tagged) (t : Tagged) :
    (deletions overflow sites status dropped t).map (fun d => d.2.id) =
      dropped.map Tagged.id ++
        if status = .success then [] else List.replicate sites.length t.id := by
  unfold deletions
  split_ifs with h <;> simp_all [Function.comp_def]

section step

variable {s s' : Conn (Fifo Tagged) σ} {l : Label ε}

/-- An enqueue makes no copies.
Source: `net_connection.c`, `net_connection_add_to_queue` and the two thread functions
Kind: L -/
theorem count_enqueue_le {calls : EnqueueCalls} {q q' : Fifo Tagged} {t : Tagged}
    {status : MessageQueueStatus} {dropped : List Tagged}
    (he : fifoOps.enqueue calls q t = some (status, q', dropped)) (x : ℕ) :
    (dropped.map Tagged.id).count x + (q'.items.map Tagged.id).count x ≤
      (q.items.map Tagged.id).count x + [t.id].count x := by
  have hsub := (Fifo.sublist_of_enqueue (Option.some.inj he)).map Tagged.id
  have hcount := hsub.count_le x
  simpa [List.count_append] using hcount

/-- A clean enqueue on the outgoing queue and the deletions around it make no copies: without the
lock the message is only deleted, with a single slot it is deleted at most.
Source: `net_connection.c`, `net_connection_add_to_queue` and the two thread functions
Kind: L -/
theorem count_deletions_outgoing {calls : EnqueueCalls} {q : Fifo Tagged} {t : Tagged}
    {status : MessageQueueStatus} {dropped : List Tagged}
    (hok : HandsOver s (.enqueueOutgoing calls : Label ε))
    (he : fifoOps.enqueue calls s.outgoing t = some (status, q, dropped)) (x : ℕ) :
    ((deletions .overflowOutgoing [.addToQueue] status dropped t).map fun d => d.2.id).count x +
        (q.items.map Tagged.id).count x ≤
      (s.outgoing.items.map Tagged.id).count x + [t.id].count x := by
  have hcount := count_enqueue_le he x
  rw [map_id_deletions, List.count_append]
  cases hlock : calls.lock with
  | false =>
      have heq := (Fifo.enqueue_of_not_lock hlock).symm.trans (Option.some.inj he)
      cases heq
      simp [List.count_cons, add_comm]
  | true =>
      rcases hok with hlock' | hstatus | hone
      · exact absurd hlock (by simp [hlock'])
      · rw [Fifo.status_of_enqueue hlock (Option.some.inj he), if_pos hstatus]
        simpa using hcount
      · -- a single slot: the queue stays empty, the message is in the deletions at most
        have heq := (Fifo.enqueue_of_one hlock hone).symm.trans (Option.some.inj he)
        cases heq
        split_ifs <;> simp [List.count_cons, add_comm]

/-- How often a number occurs in the ledger, place by place.
Source: `net_connection.c`, `net_connection_add_to_queue` and the two thread functions
Kind: L -/
theorem Conn.count_ledger (s : Conn (Fifo Tagged) σ) (x : ℕ) : s.ledger.count x =
    (s.deleted.map fun d => d.2.id).count x + ((s.send.hand.map Tagged.id).count x +
      ((s.outgoing.items.map Tagged.id).count x + ((s.work.answered.map Tagged.id).count x +
        ((s.work.unhandled.map Tagged.id).count x + ((s.incoming.items.map Tagged.id).count x +
          s.recv.ids.count x))))) := by
  simp [Conn.ledger, Conn.deletedIds, Conn.live, Conn.waiting, Conn.requests, List.count_append]

/-- **A clean step copies nothing**: if no datagram arrives, no number occurs more often in the
ledger than before.
Source: `net_connection.c`, `net_connection_add_to_queue` and the two thread functions
Kind: P -/
theorem Moved.count_ledger_le (hm : Moved fifoOps handler s l s') (hok : HandsOver s l)
    (hreceipts : s'.receipts = s.receipts) (x : ℕ) : s'.ledger.count x ≤ s.ledger.count x := by
  cases hm with
  | recvfrom pc => simp at hreceipts
  | recvfromFailed pc => exact le_refl _
  | createFailed pc create =>
      simp only [Conn.count_ledger, RecvPc.ids, List.count_nil]
      omega
  | createHeader pc create =>
      simp only [Conn.count_ledger, RecvPc.ids, pc, le_refl]
  | readOwner pc =>
      simp only [Conn.count_ledger, RecvPc.ids, pc, le_refl]
  | readData pc data =>
      simp only [Conn.count_ledger, RecvPc.ids, pc, le_refl]
  | @enqueueIncoming calls t status q dropped pc enqueue =>
      have hstatus := Fifo.status_of_enqueue hok.1 (Option.some.inj enqueue)
      have hcount := count_enqueue_le enqueue x
      simp only [Conn.count_ledger, RecvPc.ids, pc, List.map_append, map_id_deletions,
        hstatus, hok.2, if_true, List.count_append, List.count_nil]
      omega
  | updateCall pc =>
      simp only [Conn.count_ledger, WorkPc.unhandled, WorkPc.answered, pc, le_refl]
  | workEmpty pc dequeue =>
      obtain ⟨hsub, -, -⟩ := Fifo.items_of_dequeue_none (Option.some.inj dequeue)
      have hcount := (hsub.map Tagged.id).count_le x
      simp only [Conn.count_ledger]
      omega
  | workDequeue pc dequeue =>
      obtain ⟨hitems, -⟩ := Fifo.items_of_dequeue_some (Option.some.inj dequeue)
      simp only [Conn.count_ledger, WorkPc.unhandled, WorkPc.answered, pc, hitems, List.map_cons,
        List.map_nil, List.count_cons, List.count_nil]
      omega
  | handle pc call =>
      simp only [Conn.count_ledger, WorkPc.unhandled, WorkPc.answered, pc, List.map_cons,
        List.map_nil, List.count_nil]
      omega
  | @enqueueOutgoing calls left t status q dropped pc enqueue =>
      have hcount := count_deletions_outgoing hok enqueue x
      simp only [Conn.count_ledger, WorkPc.unhandled, WorkPc.answered, pc, List.map_append,
        List.map_cons, List.map_nil, List.count_append, List.count_nil]
      omega
  | updateReturn pc done =>
      simp only [Conn.count_ledger, WorkPc.unhandled, WorkPc.answered, pc, le_refl]
  | sendEmpty pc dequeue =>
      obtain ⟨hsub, -, -⟩ := Fifo.items_of_dequeue_none (Option.some.inj dequeue)
      have hcount := (hsub.map Tagged.id).count_le x
      simp only [Conn.count_ledger]
      omega
  | sendDequeue pc dequeue =>
      obtain ⟨hitems, -⟩ := Fifo.items_of_dequeue_some (Option.some.inj dequeue)
      simp only [Conn.count_ledger, SendPc.hand, pc, hitems, List.map_cons, List.map_nil,
        List.count_cons, List.count_nil]
      omega
  | reject pc header data failed =>
      simp only [Conn.count_ledger, SendPc.hand, pc, List.map_append, List.map_cons, List.map_nil,
        List.count_append, List.count_nil]
      omega
  | encode pc header data =>
      simp only [Conn.count_ledger, SendPc.hand, pc, le_refl]
  | address pc =>
      simp only [Conn.count_ledger, SendPc.hand, pc, le_refl]
  | sendto pc send =>
      simp only [Conn.count_ledger, SendPc.hand, pc, List.map_append, List.map_cons, List.map_nil,
        List.count_append, List.count_nil]
      omega

/-- **Every clean step keeps the numbers in the ledger distinct**: they are the numbers there were,
or the next one.
Source: `net_connection.c`, `net_connection_add_to_queue` and the two thread functions
Kind: P -/
theorem Conn.distinct_ledger_moved (h : Distinct s.ledger s.receipts.length)
    (hok : HandsOver s l) (hm : Moved fifoOps handler s l s') :
    Distinct s'.ledger s'.receipts.length := by
  by_cases hreceipts : s'.receipts = s.receipts
  · rw [hreceipts]
    exact h.of_count_le (hm.count_ledger_le hok hreceipts)
  · cases hm with
    | recvfrom pc =>
        have hledger : s.ledger ++ [s.receipts.length] =
            s.deletedIds ++ ((s.waiting ++ s.requests).map Tagged.id ++ [s.receipts.length]) := by
          simp [Conn.ledger, Conn.live, RecvPc.ids, pc]
        have harrival := h.arrival
        rw [hledger] at harrival
        rw [List.length_append]
        exact harrival
    | _ => exact absurd rfl hreceipts

/-! ## Ownership -/

/-- A ledger without duplicates means that every message has one owner.
Source: `net_connection.c`, `net_connection_add_to_queue` and the two thread functions
Kind: L -/
theorem Conn.owned_of_distinct (h : Distinct s.ledger s.receipts.length) : s.Owned := by
  obtain ⟨honce, -, hdisjoint⟩ := List.nodup_append.mp h.nodup
  have hlive : ∀ id ∈ s.deletedIds, id ∉ s.live := by
    intro id hid hmem
    exact hdisjoint id hid id hmem rfl
  refine ⟨honce, fun id hid hmem => hlive id hid ?_, fun id hid hmem => hlive id hid ?_⟩
  · obtain ⟨t, ht, rfl⟩ := List.mem_map.mp hmem
    rw [Conn.mem_live_iff]
    rcases List.mem_append.mp ht with ht | ht
    · exact .inr (.inl ⟨t, List.mem_append_right _ ht, rfl⟩)
    · exact .inl ⟨t, List.mem_append_left _ (List.mem_append_right _ ht), rfl⟩
  · obtain ⟨t, ht, rfl⟩ := List.mem_map.mp hmem
    rw [Conn.mem_live_iff]
    rcases List.mem_append.mp ht with ht | ht
    · exact .inr (.inl ⟨t, List.mem_append_left _ ht, rfl⟩)
    · exact .inl ⟨t, List.mem_append_left _ (List.mem_append_left _ ht), rfl⟩

/-- **A failure on the incoming queue deletes the message twice.**
Source: `net_connection.c`, `net_connection_add_to_queue` and the two thread functions
Kind: P -/
theorem not_owned_of_enqueueIncoming {calls : EnqueueCalls}
    (hbad : ¬ HandsOver s (.enqueueIncoming calls : Label ε))
    (hm : Moved fifoOps handler s (.enqueueIncoming calls) s') : ¬ s'.Owned := by
  cases hm with
  | @enqueueIncoming calls t status q dropped pc enqueue =>
      have hstatus : status ≠ .success := by
        rintro rfl
        exact hbad (Fifo.calls_of_enqueue_success (Option.some.inj enqueue))
      intro howned
      have honce := howned.once
      rw [Conn.deletedIds, List.map_append, map_id_deletions, if_neg hstatus] at honce
      have htwice := (List.nodup_append.mp (List.nodup_append.mp honce).2.1).2.1
      simp at htwice

/-- **A failure after the insertion deletes a queued message.**
Source: `net_connection.c`, `net_connection_add_to_queue` and the two thread functions
Kind: P -/
theorem not_owned_of_enqueueOutgoing {calls : EnqueueCalls}
    (hbad : ¬ HandsOver s (.enqueueOutgoing calls : Label ε))
    (hm : Moved fifoOps handler s (.enqueueOutgoing calls) s') : ¬ s'.Owned := by
  simp only [HandsOver, not_or, Bool.not_eq_false] at hbad
  obtain ⟨hlock, hfailed, hcap⟩ := hbad
  cases hm with
  | @enqueueOutgoing calls left t status q dropped pc enqueue =>
      have hstatus := Fifo.status_of_enqueue hlock (Option.some.inj enqueue)
      have hqueued := Fifo.mem_of_enqueue hlock hcap (Option.some.inj enqueue)
      intro howned
      refine howned.queued t.id ?_ (List.mem_map_of_mem (List.mem_append_right _ hqueued))
      rw [Conn.deletedIds, List.map_append, map_id_deletions, hstatus, if_neg hfailed]
      simp

/-- A step keeps ownership exactly when it is a clean hand-over.
Source: `net_connection.c`, `net_connection_add_to_queue` and the two thread functions
Kind: P -/
theorem Conn.owned_moved_iff (h : Distinct s.ledger s.receipts.length)
    (hm : Moved fifoOps handler s l s') : s'.Owned ↔ HandsOver s l := by
  constructor
  · intro howned
    by_contra hbad
    cases l with
    | enqueueIncoming calls => exact not_owned_of_enqueueIncoming hbad hm howned
    | enqueueOutgoing calls => exact not_owned_of_enqueueOutgoing hbad hm howned
    | _ => exact hbad trivial
  · intro hok
    exact Conn.owned_of_distinct (Conn.distinct_ledger_moved h hok hm)

end step

/-! ## Every run -/

/-- **Message ownership.** For every worker function, every sequence of datagrams, every
interleaving and every outcome of the `pthread_*` calls inside the queues: as long as every
hand-over is clean, no message is passed to `message_delete` twice and no deleted message is in a
queue or returned from one; the first hand-over that is not clean breaks this.
Source: `net_connection.c`, `net_connection_add_to_queue` and the two thread functions;
`message_queue.c`, `message_queue_enqueue`; `server_worker.c`, `server_worker_update`
Kind: P
Hyps: the capacities are `int`s -/
theorem owned_iff_handsOver {calls₁ calls₂ : CreateCalls} {c₁ c₂ : ℤ}
    {q₁ q₂ : MessageQueue Tagged} (hc₁ : c₁ ≤ intMax) (hc₂ : c₂ ≤ intMax)
    (hq₁ : messageQueueCreate calls₁ c₁ = some q₁) (hq₂ : messageQueueCreate calls₂ c₂ = some q₂)
    (socket : UdpSocket) (store : σ) {ls : List (Label ε)} {s : Conn (MessageQueue Tagged) σ}
    (h : Run (step ringOps handler) (fun s l => HandsOver s.fifo l)
      (Conn.init socket q₁ q₂ store) ls s) :
    s.fifo.Owned ∧
      ∀ l s', step ringOps handler s l = some s' → (s'.fifo.Owned ↔ HandsOver s.fifo l) := by
  have hrefines : Run (step fifoOps handler) HandsOver
      (Conn.init socket ⟨c₁.toNat, []⟩ ⟨c₂.toNat, []⟩ store) ls s.fifo ∧ s.Valid :=
    run_refines_of_create (fun _ _ hok => hok) hc₁ hc₂ hq₁ hq₂ h
  obtain ⟨hrun, hvalid⟩ := hrefines
  have hdistinct : Distinct s.fifo.ledger s.fifo.receipts.length :=
    hrun.invariant (I := fun s => Distinct s.ledger s.receipts.length) (Distinct.nil 0)
      fun _ _ _ hinv hok hs => Conn.distinct_ledger_moved hinv hok (moved_of_step hs)
  refine ⟨Conn.owned_of_distinct hdistinct, ?_⟩
  intro l s' hs
  obtain ⟨hm, -⟩ := (moved_of_step hs).refines hvalid
  exact Conn.owned_moved_iff hdistinct hm

/-- Whether a step hands a message over can be computed.
Source: none: infrastructure
Kind: D -/
instance (s : Conn (Fifo Tagged) σ) : DecidablePred (HandsOver s (ε := ε))
  | .enqueueIncoming calls =>
      inferInstanceAs (Decidable (calls.lock = true ∧ enqueueStatus calls = .success))
  | .enqueueOutgoing calls => inferInstanceAs (Decidable
      (calls.lock = false ∨ enqueueStatus calls = .success ∨ s.outgoing.capacity = 1))
  | .recvfrom _ | .recvfromFailed | .createHeader _ _ | .readOwner | .readData | .updateCall _
  | .workDequeue _ | .handle _ | .updateReturn _ | .sendDequeue _ | .encode | .address
  | .sendto => .isTrue trivial

/-- A reply that could not be enqueued, because the lock failed, is deleted once.
Source: `net_connection.c`, `net_connection_add_to_queue` and the two thread functions
Kind: C -/
theorem owned_after_failed_lock :
    ∃ s, Run (step ringOps workerOnMessage) (fun s l => HandsOver s.fifo l) newWorker
        (firstRequest .allOk ⟨false, true, true⟩) s ∧
      s.deletedIds = [0] ∧ s.fifo.Owned := by
  obtain ⟨s, hrun, hdeleted⟩ := Run.exists_of_exec
    (show (exec (step ringOps workerOnMessage) (fun s l => HandsOver s.fifo l) newWorker
        (firstRequest .allOk ⟨false, true, true⟩)).map
      (fun s => decide (s.deletedIds = [0])) = some true by decide +kernel)
  exact ⟨s, hrun, of_decide_eq_true hdeleted, (owned_iff_handsOver (by decide) (by decide)
    messageQueueCreate_emptyQueue messageQueueCreate_emptyQueue _ _ hrun).1⟩

/-- **A double deletion and a deleted message in a queue.** When the lock of the incoming queue
fails, the request is deleted by `net_connection_add_to_queue` and by the receive thread; when the
signal of the outgoing queue fails, the reply is deleted and stays in the queue.
Source: `net_connection.c`, `net_connection_add_to_queue` and the two thread functions
Kind: C -/
theorem deleted_twice_or_queued :
    (∃ s, Run (step ringOps workerOnMessage) (fun _ _ => True) newWorker
        (receiveLabels (unknownRequest firstClient) zeroMemory ⟨false, true, true⟩) s ∧
      s.deletedIds = [0, 0]) ∧
    ∃ s, Run (step ringOps workerOnMessage) (fun _ _ => True) newWorker
        (firstRequest .allOk ⟨true, false, true⟩) s ∧
      s.deletedIds = [0] ∧ s.outgoing.contents.map Tagged.id = [0] := by
  obtain ⟨s₁, hrun₁, htwice⟩ := Run.exists_of_exec
    (show (exec (step ringOps workerOnMessage) (fun _ _ => True) newWorker
        (receiveLabels (unknownRequest firstClient) zeroMemory ⟨false, true, true⟩)).map
      (fun s => decide (s.deletedIds = [0, 0])) = some true by decide +kernel)
  obtain ⟨s₂, hrun₂, hqueued⟩ := Run.exists_of_exec
    (show (exec (step ringOps workerOnMessage) (fun _ _ => True) newWorker
        (firstRequest .allOk ⟨true, false, true⟩)).map
      (fun s => decide (s.deletedIds = [0] ∧ s.outgoing.contents.map Tagged.id = [0])) =
        some true by decide +kernel)
  exact ⟨⟨s₁, hrun₁, of_decide_eq_true htwice⟩, s₂, hrun₂, of_decide_eq_true hqueued⟩

end CpuMonitor.Server
