import CpuMonitor.Lib.Monitor
import CpuMonitor.Lib.Run
import CpuMonitor.Network.MessageQueue

/-!
# Threads at a message queue

`network/message_queue.c`: the operations of a queue run under its mutex; a consumer of an empty
queue waits for `not_empty_cond`, and every insertion signals it.

* **The system** `QueueThreads τ α`: the queue and its monitor, for any type `τ` of threads. A
  thread takes the mutex for one of the calls of `QueueOp`; its critical section is the operation
  on the ring buffer (`MessageQueue.stepOp`), for an insertion the signal, and the release. Woken
  threads, by a signal or spuriously, compete for the mutex like any other.
* **The invariant** `QueueThreads.Covered`: while a consumer is blocked, the messages are covered by
  the woken consumers and by the thread that holds the mutex, if it is about to signal or to take a
  message.
* `no_lost_wake_up` — every run, between critical sections.
-/

namespace CpuMonitor.Network

open CpuMonitor.Lib

/-! ## The system -/

/-- Where the thread that holds the mutex is.
Source: `message_queue.c`, `message_queue_enqueue`, `message_queue_dequeue`,
`message_queue_dequeue_nonblocking`
Kind: D -/
inductive CriticalPc (α : Type)
  /-- At the head of the critical section; in a dequeue also after a wait. -/
  | call (op : QueueOp α)
  /-- Before `pthread_cond_signal`. -/
  | signal
  /-- Before `pthread_mutex_unlock`. -/
  | leave

/-- A queue and the threads at it.
Source: `message_queue.c`, `message_queue_enqueue`, `message_queue_dequeue`
Kind: D -/
structure QueueThreads (τ α : Type) where
  queue : MessageQueue α
  monitor : Monitor τ (CriticalPc α)

/-- Who moves, and whom a signal wakes.
Source: `message_queue.c`, `message_queue_enqueue`, `message_queue_dequeue`
Kind: D -/
inductive ThreadLabel (τ α : Type)
  /-- Thread `t` makes a call and gets the mutex. -/
  | lock (t : τ) (op : QueueOp α)
  /-- The thread with the mutex runs its operation; a blocking dequeue of an empty queue waits. -/
  | run
  /-- `pthread_cond_signal` wakes the threads `ts`. -/
  | signal (ts : Finset τ)
  /-- `pthread_mutex_unlock`. -/
  | unlock
  /-- `pthread_cond_wait` of thread `t` ends without a signal. -/
  | spurious (t : τ)
  /-- The woken thread `t` gets the mutex back and goes on at the head of its loop. -/
  | relock (t : τ)

variable {τ α : Type} [DecidableEq τ]

/-- A queue that nobody uses yet.
Source: none: infrastructure
Kind: D -/
def QueueThreads.init (q : MessageQueue α) : QueueThreads τ α := ⟨q, .free⟩

/-- One step; `none` if it is not enabled or has no defined outcome.
Source: `message_queue.c`
Kind: D
Fidelity: exact (the `pthread_*` calls succeed) -/
def QueueThreads.step (s : QueueThreads τ α) : ThreadLabel τ α → Option (QueueThreads τ α)
  | .lock t op => do
      let monitor ← s.monitor.lock t (.call op)
      some { s with monitor := monitor }
  | .run =>
      match s.monitor.holder with
      | some (_, .call op) => do
          let (event, queue) ← s.queue.stepOp op
          match event with
          | .enqueued _ _ => some ⟨queue, s.monitor.move .signal⟩
          | .dequeued .blocked => some ⟨queue, s.monitor.wait⟩
          | .dequeued (.returned _) => some ⟨queue, s.monitor.move .leave⟩
      | _ => none
  | .signal ts =>
      match s.monitor.holder with
      | some (_, .signal) => do
          let monitor ← s.monitor.signal ts
          some { s with monitor := monitor.move .leave }
      | _ => none
  | .unlock =>
      match s.monitor.holder with
      | some (_, .leave) => some { s with monitor := s.monitor.unlock }
      | _ => none
  | .spurious t => do
      let monitor ← s.monitor.wake {t}
      some { s with monitor := monitor }
  | .relock t => do
      let monitor ← s.monitor.relock t (.call .dequeue)
      some { s with monitor := monitor }

/-! ## What an operation does to the number of messages -/

section operations

variable {q q' : MessageQueue α} {event : QueueEvent α}

/-- An insertion adds at most one message: an overflow deletes some, and a queue with a single slot
keeps none.
Source: `message_queue.c`, `message_queue_enqueue`, `message_queue_dequeue`
Kind: L -/
theorem length_of_enqueue (h : q.Valid) {m : α}
    (hs : q.stepOp (.enqueue m) = some (event, q')) :
    (∃ status deleted, event = .enqueued status deleted) ∧
      q'.contents.length ≤ q.contents.length + 1 ∧ q'.Valid := by
  obtain ⟨⟨status, q₁, deleted⟩, henqueue, hs⟩ := Option.bind_eq_some_iff.mp hs
  cases hs
  obtain ⟨hfifo, hvalid⟩ := h.enqueue henqueue
  have hsub := (Fifo.sublist_of_enqueue hfifo).length_le
  rw [List.length_append, List.length_append, List.length_singleton] at hsub
  refine ⟨⟨status, deleted, rfl⟩, ?_, hvalid⟩
  show q'.fifo.items.length ≤ q.fifo.items.length + 1
  omega

/-- A blocking dequeue waits only when there is nothing, and takes a message otherwise.
Source: `message_queue.c`, `message_queue_enqueue`, `message_queue_dequeue`
Kind: L -/
theorem length_of_dequeue (h : q.Valid) (hs : q.stepOp .dequeue = some (event, q')) :
    (event = .dequeued .blocked ∧ q'.contents.length = 0 ∨
      ∃ message, event = .dequeued (.returned message) ∧
        q'.contents.length + 1 = q.contents.length) ∧ q'.Valid := by
  obtain ⟨⟨result, q₁⟩, hdequeue, hs⟩ := Option.bind_eq_some_iff.mp hs
  cases hs
  have hq : q.Represents q.contents := h
  obtain ⟨result', q₂, heq, -, hcases⟩ := hq.dequeue
  rw [hdequeue, Option.some.injEq, Prod.mk.injEq] at heq
  obtain ⟨rfl, rfl⟩ := heq
  rcases hcases with ⟨hnil, rfl, rfl⟩ | ⟨x, rest, hcons, rfl, hrep⟩
  · exact ⟨.inl ⟨rfl, by rw [hnil, List.length_nil]⟩, h⟩
  · refine ⟨.inr ⟨some x, rfl, ?_⟩, hrep.valid⟩
    rw [hcons, hrep.contents_eq, List.length_cons]

/-- The other dequeue never waits and adds nothing.
Source: `message_queue.c`, `message_queue_enqueue`, `message_queue_dequeue`
Kind: L -/
theorem length_of_dequeueNonblocking (h : q.Valid)
    (hs : q.stepOp .dequeueNonblocking = some (event, q')) :
    (∃ message, event = .dequeued (.returned message)) ∧
      q'.contents.length ≤ q.contents.length ∧ q'.Valid := by
  obtain ⟨⟨message, q₁⟩, hdequeue, hs⟩ := Option.bind_eq_some_iff.mp hs
  cases hs
  obtain ⟨hfifo, hvalid⟩ := h.dequeueNonblocking hdequeue
  refine ⟨⟨message, rfl⟩, ?_, hvalid⟩
  show q'.fifo.items.length ≤ q.fifo.items.length
  cases message with
  | none => exact (Fifo.items_of_dequeue_none hfifo).1.length_le
  | some m =>
      rw [(Fifo.items_of_dequeue_some hfifo).1]
      exact Nat.le_succ _

end operations

/-! ## The invariant -/

/-- What the thread with the mutex still owes: the wake-up of its insertion, or the message it is
about to take.
Source: none: infrastructure
Kind: D -/
def credit : Option (τ × CriticalPc α) → ℕ
  | some (_, .signal) => 1
  | some (_, .call .dequeue) => 1
  | _ => 0

/-- While a consumer is blocked, the messages are covered.
Source: none: infrastructure
Kind: D -/
structure QueueThreads.Covered (s : QueueThreads τ α) : Prop where
  valid : s.queue.Valid
  covers : s.monitor.Covers s.queue.contents.length (credit s.monitor.holder)

section steps

variable {s s' : QueueThreads τ α}

omit [DecidableEq τ] in
/-- The thread with the mutex goes on: what it owes from now on makes up for the messages it has
added.
Source: `message_queue.c`, `message_queue_enqueue`, `message_queue_dequeue`
Kind: L -/
theorem QueueThreads.Covered.move (h : s.Covered) {t : τ} {pc pc' : CriticalPc α}
    (hholder : s.monitor.holder = some (t, pc)) {queue : MessageQueue α} (hvalid : queue.Valid)
    (hlength : queue.contents.length + credit (some (t, pc)) ≤
      s.queue.contents.length + credit (some (t, pc'))) :
    (⟨queue, s.monitor.move pc'⟩ : QueueThreads τ α).Covered := by
  have hcovers := h.covers
  rw [hholder] at hcovers
  refine ⟨hvalid, ?_⟩
  rw [Monitor.holder_move hholder]
  exact (hcovers.move pc').mono hlength

/-- **The operation under the mutex.**
Source: `message_queue.c`, `message_queue_enqueue`, `message_queue_dequeue`
Kind: P -/
theorem QueueThreads.Covered.run (h : s.Covered) {t : τ} {op : QueueOp α}
    (hholder : s.monitor.holder = some (t, .call op)) (hs : s.step .run = some s') :
    s'.Covered := by
  simp only [QueueThreads.step, hholder] at hs
  obtain ⟨⟨event, queue⟩, hop, hs⟩ := Option.bind_eq_some_iff.mp hs
  cases op with
  | enqueue m =>
      obtain ⟨⟨status, deleted, rfl⟩, hlength, hvalid⟩ := length_of_enqueue h.valid hop
      obtain rfl := Option.some.inj hs
      -- the new message is covered by the signal to come
      exact h.move hholder hvalid hlength
  | dequeue =>
      obtain ⟨⟨rfl, hempty⟩ | ⟨message, rfl, hlength⟩, hvalid⟩ := length_of_dequeue h.valid hop
      · obtain rfl := Option.some.inj hs
        refine ⟨hvalid, ?_⟩
        show s.monitor.wait.Covers queue.contents.length _
        rw [hempty]
        exact Monitor.Covers.zero _ _
      · obtain rfl := Option.some.inj hs
        exact h.move hholder hvalid hlength.le
  | dequeueNonblocking =>
      obtain ⟨⟨message, rfl⟩, hlength, hvalid⟩ := length_of_dequeueNonblocking h.valid hop
      obtain rfl := Option.some.inj hs
      exact h.move hholder hvalid hlength

/-- **Every step keeps the messages covered.**
Source: `message_queue.c`, `message_queue_enqueue`, `message_queue_dequeue`
Kind: P -/
theorem QueueThreads.Covered.step (h : s.Covered) {l : ThreadLabel τ α}
    (hs : s.step l = some s') : s'.Covered := by
  have hcovers := h.covers
  cases l with
  | lock t op =>
      obtain ⟨monitor, hlock, hs⟩ := Option.bind_eq_some_iff.mp hs
      obtain rfl := Option.some.inj hs
      obtain ⟨hnone, hholder⟩ := Monitor.holder_of_lock hlock
      rw [hnone] at hcovers
      exact ⟨h.valid, (hcovers.lock hlock).mono (Nat.add_le_add_left (Nat.zero_le _) _)⟩
  | run =>
      match hholder : s.monitor.holder with
      | some (t, .call op) => exact h.run hholder hs
      | some (t, .signal) => simp [QueueThreads.step, hholder] at hs
      | some (t, .leave) => simp [QueueThreads.step, hholder] at hs
      | none => simp [QueueThreads.step, hholder] at hs
  | signal ts =>
      simp only [QueueThreads.step] at hs
      split at hs
      · rename_i t hholder
        obtain ⟨monitor, hsignal, hs⟩ := Option.bind_eq_some_iff.mp hs
        obtain rfl := Option.some.inj hs
        rw [hholder] at hcovers
        have hholder' : monitor.holder = some (t, .signal) :=
          (Monitor.holder_of_signal hsignal).trans hholder
        refine ⟨h.valid, ?_⟩
        rw [Monitor.holder_move hholder']
        have hsignalled : monitor.Covers s.queue.contents.length 0 := hcovers.signal hsignal
        exact hsignalled.move .leave
      · simp at hs
  | unlock =>
      simp only [QueueThreads.step] at hs
      split at hs
      · rename_i t hholder
        obtain rfl := Option.some.inj hs
        rw [hholder] at hcovers
        exact ⟨h.valid, hcovers.unlock⟩
      · simp at hs
  | spurious t =>
      obtain ⟨monitor, hwake, hs⟩ := Option.bind_eq_some_iff.mp hs
      obtain rfl := Option.some.inj hs
      refine ⟨h.valid, ?_⟩
      rw [Monitor.holder_of_wake hwake]
      apply Monitor.Covers.wake _ hwake
      exact hcovers.mono (Nat.add_le_add_left (Nat.le_add_right _ _) _)
  | relock t =>
      obtain ⟨monitor, hrelock, hs⟩ := Option.bind_eq_some_iff.mp hs
      obtain rfl := Option.some.inj hs
      obtain ⟨hnone, hholder⟩ := Monitor.holder_of_relock hrelock
      rw [hnone] at hcovers
      refine ⟨h.valid, ?_⟩
      rw [hholder]
      exact hcovers.relock hrelock

end steps

/-! ## Every run -/

/-- **No lost wake-up.** For any number of threads that call `message_queue_enqueue`,
`message_queue_dequeue` and `message_queue_dequeue_nonblocking` on one queue, in any interleaving of
their critical sections, with any choice of the threads a signal wakes and any spurious wake-ups:
whenever the mutex is free and a consumer is blocked, there are at most as many messages as woken
consumers that have not got the mutex back. So no consumer is blocked beside a message that nobody
is on the way to take.
Source: `message_queue.c`; `test_message_queue.c` tries one consumer and one message
Kind: P
Hyps: the capacity is an `int` -/
theorem no_lost_wake_up {calls : CreateCalls} {c : ℤ} {q : MessageQueue α} (hc : c ≤ intMax)
    (hcreate : messageQueueCreate calls c = some q) {ls : List (ThreadLabel τ α)}
    {s : QueueThreads τ α} (h : Run QueueThreads.step (fun _ _ => True) (.init q) ls s)
    (hfree : s.monitor.holder = none) :
    (s.monitor.blocked.Nonempty → s.queue.contents.length ≤ s.monitor.woken.card) ∧
      ¬ (s.monitor.blocked.Nonempty ∧ s.queue.contents ≠ [] ∧ s.monitor.woken = ∅) := by
  have hinit : (QueueThreads.init q : QueueThreads τ α).Covered := by
    obtain ⟨-, hrep⟩ := represents_of_messageQueueCreate hcreate hc
    refine ⟨hrep.valid, ?_⟩
    show Monitor.free.Covers q.contents.length 0
    rw [hrep.contents_eq]
    exact Monitor.Covers.zero _ _
  have hinv : s.Covered := h.invariant hinit fun _ _ _ hinv _ hs => hinv.step hs
  have hcovers := hinv.covers
  rw [hfree] at hcovers
  refine ⟨hcovers, ?_⟩
  rintro ⟨hblocked, hmessages, hwoken⟩
  have hle := hcovers hblocked
  rw [hwoken, Finset.card_empty] at hle
  exact hmessages (List.length_eq_zero_iff.mp (Nat.le_zero.mp hle))

/-- Two consumers wait, one message comes and wakes one of them, and before it runs another consumer
takes the message.
Source: `message_queue.c`, `message_queue_enqueue`, `message_queue_dequeue`
Kind: C -/
theorem no_lost_wake_up_stolen :
    ∃ s : QueueThreads ℕ ℕ, Run QueueThreads.step (fun _ _ => True)
        (.init ⟨List.replicate 4 none, 4, 0, 0⟩)
        [.lock 0 .dequeue, .run, .lock 1 .dequeue, .run, .lock 2 (.enqueue 7), .run, .signal {0},
          .unlock, .lock 3 .dequeueNonblocking, .run, .unlock] s ∧
      s.monitor.holder = none ∧ s.monitor.blocked = {1} ∧ s.monitor.woken = {0} ∧
      s.queue.contents.length ≤ s.monitor.woken.card := by
  obtain ⟨s, hrun, hs⟩ := Run.exists_of_exec
    (show (exec QueueThreads.step (fun _ _ => True) (.init ⟨List.replicate 4 none, 4, 0, 0⟩)
        [.lock 0 .dequeue, .run, .lock 1 .dequeue, .run, .lock 2 (.enqueue 7), .run, .signal {0},
          .unlock, .lock 3 .dequeueNonblocking, .run, .unlock]).map
      (fun s : QueueThreads ℕ ℕ => decide (s.monitor.holder.isNone ∧ s.monitor.blocked = {1} ∧
        s.monitor.woken = {0})) = some true by decide +kernel)
  obtain ⟨hnone, hblocked, hwoken⟩ := of_decide_eq_true hs
  have hfree : s.monitor.holder = none := Option.isNone_iff_eq_none.mp hnone
  refine ⟨s, hrun, hfree, hblocked, hwoken, ?_⟩
  have hcreate : messageQueueCreate .allOk 4 = some ⟨List.replicate 4 (none : Option ℕ), 4, 0, 0⟩ :=
    rfl
  apply (no_lost_wake_up (by decide) hcreate hrun hfree).1
  rw [hblocked]
  exact Finset.singleton_nonempty 1

end CpuMonitor.Network
