import CpuMonitor.Server.Flow

/-!
# Datagrams for a busy worker

`server/server_worker.c` and `network/message_queue.c`: while a worker does not look at its incoming
queue (it is asleep, or its function samples a process), datagrams pile up there, and whenever the
queue is full the next one clears half of it.

* **The number that survives** `survivors c n`: a closed form for `n` messages in a queue of
  capacity `c`, and its recurrence (`survivors_succ`).
* **The account** `Conn.BurstInv`: what has arrived is what was dropped by the clearing, and behind
  it what is in the queue; nothing else is missing.
* `burst_keeps_newest` — in every run in which the worker takes no message the queue holds exactly
  the newest `survivors c n` of the `n` messages that came in, between half and all of the queue
  once it has overflowed.
-/

namespace CpuMonitor.Server

open CpuMonitor.Lib CpuMonitor.Network

variable {σ ε : Type} {handler : Handler ε σ}

/-! ## The number that survives -/

/-- How many of `n` messages are left in a queue of capacity `c` from which nothing is taken.
Source: none: infrastructure
Kind: D -/
def survivors (c n : ℕ) : ℕ := if n < c then n else c - c / 2 + (n - c) % (c / 2)

/-- A burst that fits is kept as a whole.
Source: `message_queue.c`, `message_queue_enqueue`; `net_connection.c`,
`net_connection_receive_thread_func`
Kind: L -/
theorem survivors_of_lt {c n : ℕ} (h : n < c) : survivors c n = n := if_pos h

/-- Of a longer one, what is left after the last clearing.
Source: `message_queue.c`, `message_queue_enqueue`; `net_connection.c`,
`net_connection_receive_thread_func`
Kind: L -/
theorem survivors_of_ge {c n : ℕ} (h : c ≤ n) :
    survivors c n = c - c / 2 + (n - c) % (c / 2) := if_neg (Nat.not_lt.mpr h)

/-- Between half of the queue and all but one of its slots.
Source: `message_queue.c`, `message_queue_enqueue`; `net_connection.c`,
`net_connection_receive_thread_func`
Kind: L -/
theorem survivors_bounds {c n : ℕ} (hc : 2 ≤ c) (h : c ≤ n) :
    c - c / 2 ≤ survivors c n ∧ survivors c n ≤ c - 1 := by
  rw [survivors_of_ge h]
  have hmod := Nat.mod_lt (n - c) (show 0 < c / 2 by omega)
  omega

/-- **One more message**: at a full queue half of it goes first.
Source: `message_queue.c`, `message_queue_enqueue`; `net_connection.c`,
`net_connection_receive_thread_func`
Kind: P -/
theorem survivors_succ {c : ℕ} (hc : 2 ≤ c) (n : ℕ) :
    survivors c (n + 1) = if survivors c n = c - 1 then c - c / 2 else survivors c n + 1 := by
  have hhalf : 0 < c / 2 := by omega
  rcases Nat.lt_or_ge (n + 1) c with hlt | hge
  · rw [survivors_of_lt hlt, survivors_of_lt (Nat.lt_of_succ_lt hlt), if_neg (by omega)]
  rcases Nat.eq_or_lt_of_le hge with heq | hgt
  · rw [survivors_of_ge hge, survivors_of_lt (by omega), if_pos (by omega), ← heq, Nat.sub_self,
      Nat.zero_mod, Nat.add_zero]
  · -- past the first overflow the count goes round in half a queue
    have hn : c ≤ n := by omega
    have hmod := Nat.mod_lt (n - c) hhalf
    rw [survivors_of_ge hge, survivors_of_ge hn, show n + 1 - c = n - c + 1 by omega]
    by_cases hlast : (n - c) % (c / 2) = c / 2 - 1
    · have hzero : (n - c + 1) % (c / 2) = 0 := by
        rw [← Nat.mod_add_mod, hlast, Nat.sub_add_cancel hhalf, Nat.mod_self]
      rw [hzero, if_pos (by omega), Nat.add_zero]
    · have hsucc : (n - c + 1) % (c / 2) = (n - c) % (c / 2) + 1 := by
        rw [← Nat.mod_add_mod, Nat.mod_eq_of_lt (by omega)]
      rw [hsucc, if_neg (by omega), Nat.add_assoc]

/-! ## The account -/

section account

variable {s s' : Conn (Fifo Tagged) σ} {l : Label ε}

/-- The messages that an overflow of the incoming queue deleted, in order.
Source: none: infrastructure
Kind: D -/
def Conn.droppedIncoming {Q : Type} (s : Conn Q σ) : List Tagged :=
  s.deleted.filterMap fun x => if x.1 = .overflowIncoming then some x.2 else none

/-- What came into the incoming queue, if nothing was taken from it.
Source: none: infrastructure
Kind: D -/
def Conn.arrived (s : Conn (Fifo Tagged) σ) : List Tagged := s.droppedIncoming ++ s.incoming.items

/-- The step takes nothing from the incoming queue.
Source: none: infrastructure
Kind: D -/
def Label.LeavesIncoming : Label ε → Prop
  | .workDequeue _ => False
  | _ => True

/-- What every step keeps that takes nothing from the incoming queue.
Source: none: infrastructure
Kind: D -/
structure Conn.BurstInv (s : Conn (Fifo Tagged) σ) : Prop where
  capacity : 2 ≤ s.incoming.capacity
  count : s.incoming.items.length = survivors s.incoming.capacity s.arrived.length
  ordered : Ordered (s.arrived.map Tagged.id ++ s.recv.ids) s.receipts.length
  total : s.arrived.length + s.recv.ids.length + s.unallocated.length = s.receipts.length

/-- The deletions of an enqueue at another queue are not counted, those at this one are.
Source: `message_queue.c`, `message_queue_enqueue`; `net_connection.c`,
`net_connection_receive_thread_func`
Kind: L -/
theorem filterMap_deletions {site : DeleteSite} {sites : List DeleteSite}
    (hsites : ∀ x ∈ sites, x ≠ .overflowIncoming) (status : MessageQueueStatus)
    (dropped : List Tagged) (t : Tagged) :
    (deletions site sites status dropped t).filterMap
        (fun x => if x.1 = .overflowIncoming then some x.2 else none) =
      if site = .overflowIncoming then dropped else [] := by
  have hcallers : (if status ≠ .success then sites.map (fun site => (site, t)) else []).filterMap
      (fun x => if x.1 = .overflowIncoming then some x.2 else none) = [] := by
    split_ifs
    · rw [List.filterMap_eq_nil_iff]
      intro x hx
      obtain ⟨site, hsite, rfl⟩ := List.mem_map.mp hx
      exact if_neg (hsites site hsite)
    · rfl
  rw [deletions, List.filterMap_append, hcallers, List.append_nil, List.filterMap_map]
  split_ifs with hsite
  · simp [hsite]
  · simp [hsite]

/-- A step at which nothing arrives at the incoming queue or at the receive thread.
Source: `message_queue.c`, `message_queue_enqueue`; `net_connection.c`,
`net_connection_receive_thread_func`
Kind: L -/
theorem Conn.BurstInv.frame (h : s.BurstInv) (hincoming : s'.incoming = s.incoming)
    (hids : s'.recv.ids = s.recv.ids) (hreceipts : s'.receipts = s.receipts)
    (hunallocated : s'.unallocated = s.unallocated)
    (hdropped : s'.droppedIncoming = s.droppedIncoming) : s'.BurstInv := by
  have harrived : s'.arrived = s.arrived := by rw [Conn.arrived, Conn.arrived, hdropped, hincoming]
  refine ⟨hincoming ▸ h.capacity, ?_, ?_, ?_⟩
  · rw [harrived, hincoming]
    exact h.count
  · rw [harrived, hids, hreceipts]
    exact h.ordered
  · rw [harrived, hids, hreceipts, hunallocated]
    exact h.total

/-- What an enqueue does to the account.
Source: `message_queue.c`, `message_queue_enqueue`; `net_connection.c`,
`net_connection_receive_thread_func`
Kind: L -/
theorem length_of_enqueue_allOk {q q' : Fifo Tagged} {t : Tagged} {status : MessageQueueStatus}
    {dropped : List Tagged} (hc : 2 ≤ q.capacity)
    (h : q.enqueue .allOk t = (status, q', dropped)) :
    q'.items.length =
      if q.items.length = q.capacity - 1 then q.capacity - q.capacity / 2
      else q.items.length + 1 := by
  rw [Fifo.enqueue, if_neg (by simp [EnqueueCalls.allOk]), if_neg (by omega)] at h
  obtain ⟨-, rfl, -⟩ := Prod.mk.inj h |>.imp id Prod.mk.inj
  simp only [fifoEnqueue]
  split_ifs with hfull
  · simp only [List.length_append, List.length_drop, List.length_singleton]
    omega
  · simp

/-- **Every step that takes nothing keeps the account.**
Source: `message_queue.c`, `message_queue_enqueue`; `net_connection.c`,
`net_connection_receive_thread_func`
Kind: P -/
theorem Conn.BurstInv.moved (h : s.BurstInv) (hok : l.PthreadOk) (hleaves : l.LeavesIncoming)
    (hm : Moved fifoOps handler s l s') : s'.BurstInv := by
  obtain ⟨hcapacity, hcount, hordered, htotal⟩ := h
  have hinv : s.BurstInv := ⟨hcapacity, hcount, hordered, htotal⟩
  cases hm with
  | recvfrom pc =>
      rw [pc, RecvPc.ids, List.append_nil] at hordered
      rw [pc, RecvPc.ids, List.length_nil] at htotal
      refine ⟨hcapacity, hcount, ?_, ?_⟩
      · rw [List.length_append, List.length_singleton]
        exact hordered.advance .arrival
      · rw [List.length_append, List.length_singleton, ← htotal]
        simp only [RecvPc.ids, List.length_singleton, Conn.arrived, Conn.droppedIncoming]
        omega
  | recvfromFailed pc => exact hinv
  | createFailed pc create =>
      rw [pc] at hordered htotal
      refine ⟨hcapacity, hcount, ?_, ?_⟩
      · exact hordered.sublist (List.Sublist.append_left (List.nil_sublist _) _)
      · rw [List.length_append, List.length_singleton, ← htotal]
        simp only [RecvPc.ids, List.length_singleton, List.length_nil, Conn.arrived,
          Conn.droppedIncoming]
        omega
  | createHeader pc create => exact hinv.frame rfl (by rw [pc]; rfl) rfl rfl rfl
  | readOwner pc => exact hinv.frame rfl (by rw [pc]; rfl) rfl rfl rfl
  | readData pc data => exact hinv.frame rfl (by rw [pc]; rfl) rfl rfl rfl
  | @enqueueIncoming calls t status q dropped pc enqueue =>
      obtain rfl : calls = .allOk := hok
      have henqueue := Option.some.inj enqueue
      have hqueue : q.capacity = s.incoming.capacity := Fifo.capacity_of_enqueue henqueue
      have happend : dropped ++ q.items = s.incoming.items ++ [t] :=
        Fifo.append_of_enqueue rfl (by omega) henqueue
      set s₁ : Conn (Fifo Tagged) σ := { s with
        incoming := q, recv := .idle
        deleted := s.deleted ++
          deletions .overflowIncoming [.addToQueue, .receiveThread] status dropped t }
      have hdropped : s₁.droppedIncoming = s.droppedIncoming ++ dropped := by
        have hsites : ∀ x ∈ [DeleteSite.addToQueue, .receiveThread], x ≠ .overflowIncoming := by
          decide
        have hall : (deletions .overflowIncoming [.addToQueue, .receiveThread] status dropped
            t).filterMap (fun x => if x.1 = .overflowIncoming then some x.2 else none) = dropped :=
          filterMap_deletions hsites status dropped t
        rw [Conn.droppedIncoming, List.filterMap_append, hall]
        rfl
      have harrived : s₁.arrived = s.arrived ++ [t] := by
        rw [Conn.arrived, hdropped, List.append_assoc, happend, Conn.arrived, List.append_assoc]
      rw [pc] at hordered htotal
      refine ⟨hqueue ▸ hcapacity, ?_, ?_, ?_⟩
      · rw [harrived, List.length_append, List.length_singleton, hqueue,
          survivors_succ hcapacity, ← hcount]
        exact length_of_enqueue_allOk hcapacity henqueue
      · rw [harrived, List.map_append]
        simpa [RecvPc.ids] using hordered
      · rw [harrived, List.length_append]
        exact htotal
  | workEmpty pc dequeue => exact hleaves.elim
  | workDequeue pc dequeue => exact hleaves.elim
  | @enqueueOutgoing calls left t status q dropped pc enqueue =>
      refine hinv.frame rfl rfl rfl rfl ?_
      have hsites : ∀ x ∈ [DeleteSite.addToQueue], x ≠ .overflowIncoming := by decide
      have hnone : (deletions .overflowOutgoing [.addToQueue] status dropped t).filterMap
          (fun x => if x.1 = .overflowIncoming then some x.2 else none) = [] :=
        filterMap_deletions hsites status dropped t
      rw [Conn.droppedIncoming, List.filterMap_append, hnone, List.append_nil]
      rfl
  | reject pc header data failed =>
      refine hinv.frame rfl rfl rfl rfl ?_
      rw [Conn.droppedIncoming, List.filterMap_append]
      exact List.append_nil _
  | sendto pc send =>
      refine hinv.frame rfl rfl rfl rfl ?_
      rw [Conn.droppedIncoming, List.filterMap_append]
      exact List.append_nil _
  | _ => exact hinv.frame rfl rfl rfl rfl rfl

/-- Before the burst the queue is empty.
Source: `message_queue.c`, `message_queue_enqueue`; `net_connection.c`,
`net_connection_receive_thread_func`
Kind: L -/
theorem Conn.BurstInv.init {socket : UdpSocket} {c₁ c₂ : ℕ} {store : σ} (hc : 2 ≤ c₁) :
    (Conn.init socket ⟨c₁, []⟩ ⟨c₂, []⟩ store).BurstInv where
  capacity := hc
  count := (survivors_of_lt (by show 0 < c₁; omega)).symm
  ordered := Ordered.nil 0
  total := rfl

end account

/-! ## Every run of a busy worker -/

/-- **A busy worker keeps the newest messages.** In every run of a connection, with every
interleaving of its threads, in which the worker takes nothing from the incoming queue: of the
messages that came in (all that were received but for those without memory and the one in the
receive thread's hands) the queue holds exactly `survivors c` of their number, and these are the
newest: every message that an overflow deleted is older. From `c` messages on that are at least
`c - c / 2` and at most `c - 1`.
Source: `message_queue.c`, `message_queue_enqueue`; `net_connection.c`,
`net_connection_receive_thread_func`; `server.c`, `worker_process_job`
Kind: P
Hyps: a capacity of 2 at least that is an `int`; all `pthread_*` calls succeed -/
theorem burst_keeps_newest {calls₁ calls₂ : CreateCalls} {c₁ c₂ : ℤ} {q₁ q₂ : MessageQueue Tagged}
    (hc₁ : 2 ≤ c₁ ∧ c₁ ≤ intMax) (hc₂ : c₂ ≤ intMax)
    (hq₁ : messageQueueCreate calls₁ c₁ = some q₁) (hq₂ : messageQueueCreate calls₂ c₂ = some q₂)
    {socket : UdpSocket} {store : σ} {ls : List (Label ε)} {s : Conn (MessageQueue Tagged) σ}
    (h : Run (step ringOps handler) (fun _ l => l.PthreadOk ∧ l.LeavesIncoming)
      (Conn.init socket q₁ q₂ store) ls s) :
    s.incoming.contents.length =
        survivors c₁.toNat
          (s.receipts.length - s.unallocated.length - s.recv.ids.length) ∧
    s.droppedIncoming.length + s.incoming.contents.length =
        s.receipts.length - s.unallocated.length - s.recv.ids.length ∧
    (∀ d ∈ s.droppedIncoming, ∀ t ∈ s.incoming.contents, d.id < t.id) ∧
    (c₁.toNat ≤ s.receipts.length - s.unallocated.length - s.recv.ids.length →
      c₁.toNat - c₁.toNat / 2 ≤ s.incoming.contents.length ∧
        s.incoming.contents.length ≤ c₁.toNat - 1) := by
  have hrefines : Run (step fifoOps handler) (fun _ l => l.PthreadOk ∧ l.LeavesIncoming)
      (Conn.init socket ⟨c₁.toNat, []⟩ ⟨c₂.toNat, []⟩ store) ls s.fifo ∧ s.Valid :=
    run_refines_of_create (fun _ _ hok => hok) hc₁.2 hc₂ hq₁ hq₂ h
  have hc : 2 ≤ c₁.toNat := by omega
  have hinv : s.fifo.BurstInv ∧ s.fifo.incoming.capacity = c₁.toNat :=
    hrefines.1.invariant (I := fun s => s.BurstInv ∧ s.incoming.capacity = c₁.toNat)
      ⟨.init hc, rfl⟩ fun _ _ _ hinv hok hs =>
        ⟨hinv.1.moved hok.1 hok.2 (moved_of_step hs),
          (moved_of_step hs).capacity_eq.1.trans hinv.2⟩
  obtain ⟨⟨-, hcount, hordered, htotal⟩, hcapacity⟩ := hinv
  have harrived : s.fifo.arrived.length = s.droppedIncoming.length + s.incoming.contents.length :=
    List.length_append
  have hnumber : s.fifo.arrived.length =
      s.receipts.length - s.unallocated.length - s.recv.ids.length := by
    have htotal' : s.fifo.arrived.length + s.recv.ids.length + s.unallocated.length =
      s.receipts.length := htotal
    omega
  have hkept : s.incoming.contents.length = survivors c₁.toNat s.fifo.arrived.length := by
    rw [← hcapacity]
    exact hcount
  refine ⟨hnumber ▸ hkept, by omega, ?_, ?_⟩
  · intro d hd t ht
    have hpairs := hordered.increasing
    rw [Conn.arrived, List.map_append, List.append_assoc] at hpairs
    have hlt := (List.pairwise_append.mp hpairs).2.2
    exact hlt d.id (List.mem_map_of_mem hd) t.id
      (List.mem_append_left _ (List.mem_map_of_mem ht))
  · intro hge
    rw [hkept, hnumber]
    exact survivors_bounds hc hge

/-- A queue of four slots.
Source: none: infrastructure
Kind: D -/
def smallQueue : MessageQueue Tagged := ⟨List.replicate 4 none, 4, 0, 0⟩

/-- A datagram on its way into the queue.
Source: none: infrastructure
Kind: D -/
def arrival : List (Label HandlerEnv) :=
  receiveLabels (unknownRequest firstClient) zeroMemory .allOk

/-- Whether a step leaves the incoming queue alone can be computed.
Source: none: infrastructure
Kind: D -/
instance : DecidablePred (Label.LeavesIncoming (ε := ε))
  | .workDequeue _ => .isFalse id
  | .recvfrom _ | .recvfromFailed | .createHeader _ _ | .readOwner | .readData
  | .enqueueIncoming _ | .updateCall _ | .handle _ | .enqueueOutgoing _ | .updateReturn _
  | .sendDequeue _ | .encode | .address | .sendto => .isTrue trivial

/-- Four datagrams: the first two are gone.
Source: `message_queue.c`, `message_queue_enqueue`; `net_connection.c`,
`net_connection_receive_thread_func`
Kind: C -/
theorem burst_keeps_newest_four :
    ∃ s, Run (step ringOps workerOnMessage) (fun _ l => l.PthreadOk ∧ l.LeavesIncoming)
        (Conn.init (udpSocketCreate ⟨0, 0, 0, 0⟩) smallQueue smallQueue newWorker.store)
        (arrival ++ arrival ++ arrival ++ arrival) s ∧
      s.receipts.length = 4 ∧ s.incoming.contents.length = survivors 4 4 ∧
      s.droppedIncoming.map Tagged.id = [0, 1] := by
  obtain ⟨s, hrun, hs⟩ := Run.exists_of_exec
    (show (exec (step ringOps workerOnMessage) (fun _ l => l.PthreadOk ∧ l.LeavesIncoming)
        (Conn.init (udpSocketCreate ⟨0, 0, 0, 0⟩) smallQueue smallQueue newWorker.store)
        (arrival ++ arrival ++ arrival ++ arrival)).map
      (fun s => decide (s.receipts.length = 4 ∧ s.unallocated = [] ∧ s.recv = .idle ∧
        s.droppedIncoming.map Tagged.id = [0, 1])) = some true by decide +kernel)
  obtain ⟨hreceipts, hunallocated, hrecv, hdropped⟩ := of_decide_eq_true hs
  have hcreate : messageQueueCreate .allOk 4 = some smallQueue := rfl
  have hkept := (burst_keeps_newest (by decide) (by decide) hcreate hcreate hrun).1
  rw [hreceipts, hunallocated, hrecv] at hkept
  exact ⟨s, hrun, hreceipts, hkept, hdropped⟩

end CpuMonitor.Server
