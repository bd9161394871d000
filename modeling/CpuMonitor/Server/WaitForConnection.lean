import CpuMonitor.Network.NetConnection
import CpuMonitor.Network.QueueCalls

/-!
# Waiting for the first message

`server/server_worker.c`, `server_worker_wait_for_connection`: the worker polls its incoming queue
until a message is there. The queue has no way to look at a message, so the function takes one out
and puts it back, at the other end.

* **The code's model** `serverWorkerWaitForConnection`: one `WaitRound` per round of the loop, with
  what the other threads do to the flag and to the queue meanwhile.
* `wait_rotates` — a call that finds messages returns in its first round, and has moved the oldest
  message behind the others. It cannot overflow: the message taken out leaves room for itself.
* `wait_only_waits_iff` — the order is kept exactly if all messages are the same one; between
  different messages, if there is only one.
-/

namespace CpuMonitor.Server

open CpuMonitor.Lib CpuMonitor.Network

variable {α : Type}

/-! ## The code's model -/

/-- One round of the loop.
Source: `server_worker.c`, `server_worker_wait_for_connection`
Kind: D -/
structure WaitRound (α : Type) where
  /-- `worker->is_running` at the head of the loop. -/
  isRunning : Bool
  /-- The `pthread_*` calls of the dequeue. -/
  receive : DequeueCalls
  /-- The `pthread_*` calls of the enqueue. -/
  add : EnqueueCalls
  /-- What the receive thread enqueues during the `sleep`. -/
  arrivals : List α

/-- How far a call has come.
Source: `server_worker.c`, `server_worker_wait_for_connection`
Kind: D -/
inductive WaitOutcome
  /-- It has seen a message. -/
  | connected
  /-- It has seen that the worker is stopping. -/
  | interrupted
  /-- It is still in its loop. -/
  | waiting
  deriving DecidableEq, Repr

/-- The receive thread enqueues messages.
Source: `server_worker.c`, `server_worker_wait_for_connection`
Kind: D -/
def arrive (q : MessageQueue α) (arrivals : List α) : Option (MessageQueue α) :=
  arrivals.foldlM (fun q m => (messageQueueEnqueue .allOk q m).map fun r => r.2.1) q

/-- The outcome, the incoming queue and the messages the call deletes. The status of
`net_connection_add_to_queue` is not looked at.
Source: `server_worker.c`, `server_worker_wait_for_connection`
Kind: D
Fidelity: exact (non-null worker) -/
def serverWorkerWaitForConnection :
    List (WaitRound α) → MessageQueue α → Option (WaitOutcome × MessageQueue α × List α)
  | [], q => some (.waiting, q, [])
  | round :: rounds, q =>
      if !round.isRunning then some (.interrupted, q, [])
      else do
        let (message, q') ← netConnectionReceiveNonblocking round.receive q
        match message with
        | some m => do
            let (_, q'', deleted) ← netConnectionAddToQueue round.add q' m
            some (.connected, q'', deleted)
        | none => do
            let q'' ← arrive q' round.arrivals
            serverWorkerWaitForConnection rounds q''

/-! ## What a call does to the queue -/

section call

variable {q : MessageQueue α} {xs : List α} {round : WaitRound α}

/-- A round of a running worker, with its `pthread_*` calls succeeding.
Source: `server_worker.c`, `server_worker_wait_for_connection`
Kind: D -/
structure WaitRound.Polls (round : WaitRound α) : Prop where
  isRunning : round.isRunning = true
  receive : round.receive = .allOk
  add : round.add = .allOk

/-- **What the call does to a queue with messages**: it returns, having deleted nothing, with the
oldest message behind the others.
Source: `server_worker.c`, `server_worker_wait_for_connection`
Kind: P -/
theorem wait_rotates {x : α} (hq : q.Represents (x :: xs)) (hround : round.Polls)
    (rounds : List (WaitRound α)) :
    ∃ q', serverWorkerWaitForConnection (round :: rounds) q = some (.connected, q', []) ∧
      q'.Represents (xs ++ [x]) := by
  have hlen := hq.length_lt
  rw [List.length_cons] at hlen
  have hne : q.head ≠ q.tail := mt hq.head_eq_tail_iff.mp (List.cons_ne_nil x xs)
  obtain ⟨q₁, htake, hcap, hrep⟩ := hq.takeHead
  have hreceive : netConnectionReceiveNonblocking .allOk q = some (some x, q₁) := by
    simp [netConnectionReceiveNonblocking, messageQueueDequeueNonblocking, hne, htake]
  -- the slot of the message that was taken out is free, so nothing is cleared
  have hroom : xs.length + 1 < q₁.capacity := by
    rw [hcap]
    exact hlen
  have henqueue := hrep.enqueue_of_room hroom EnqueueCalls.allOk_lock x
  have hadd : netConnectionAddToQueue .allOk q₁ x = some (.success, q₁.pushed 0 x, []) :=
    netConnectionAddToQueue_eq_success.mpr henqueue
  refine ⟨q₁.pushed 0 x, ?_, ?_⟩
  · simp [serverWorkerWaitForConnection, hround.isRunning, hround.receive, hround.add, hreceive,
      hadd]
  · exact hrep.pushed (Nat.zero_le _) (by omega) x

/-- **The call only waits exactly if the messages are all the same one**: it rotates the queue by
one. Messages in a queue are different objects, so the order is kept exactly if there is one.
Source: `server_worker.c`, `server_worker_wait_for_connection`; `test_client.c` has one message
Kind: P
Hyps: the worker is running, and its `pthread_*` calls succeed -/
theorem wait_only_waits_iff (hq : q.Represents xs) (hne : xs ≠ []) (hround : round.Polls)
    (rounds : List (WaitRound α)) :
    ∃ q', serverWorkerWaitForConnection (round :: rounds) q = some (.connected, q', []) ∧
      q'.Represents (xs.rotate 1) ∧
      (q'.contents = q.contents ↔ ∃ x, xs = List.replicate xs.length x) ∧
      (xs.Nodup → (q'.contents = q.contents ↔ xs.length = 1)) := by
  cases xs with
  | nil => exact absurd rfl hne
  | cons x rest =>
      obtain ⟨q', hwait, hrep⟩ := wait_rotates hq hround rounds
      have hrotate : (x :: rest).rotate 1 = rest ++ [x] := by
        rw [List.rotate_cons_succ, List.rotate_zero]
      rw [← hrotate] at hrep
      refine ⟨q', hwait, hrep, ?_, ?_⟩
      · have : Nonempty α := ⟨x⟩
        rw [hrep.contents_eq, hq.contents_eq]
        exact List.rotate_one_eq_self_iff_eq_replicate
      · intro hnodup
        rw [hrep.contents_eq, hq.contents_eq, hnodup.rotate_eq_self_iff]
        constructor
        · rintro (hmod | hnil)
          · exact Nat.dvd_one.mp (Nat.dvd_of_mod_eq_zero hmod)
          · exact absurd hnil hne
        · intro hone
          rw [hone]
          exact .inl rfl

end call

/-- A round with nothing else going on.
Source: none: infrastructure
Kind: D -/
def quietRound : WaitRound ℕ := ⟨true, .allOk, .allOk, []⟩

/-- A round without a message polls again.
Source: none: infrastructure
Kind: L -/
theorem quietRound_polls : quietRound.Polls := ⟨rfl, rfl, rfl⟩

/-- One message stays where it is.
Source: `server_worker.c`, `server_worker_wait_for_connection`
Kind: C -/
theorem wait_keeps_one :
    ∃ q q' : MessageQueue ℕ,
      (createdQueue ℕ 4).runOps [.enqueue 7] = some ([.enqueued .success []], q) ∧
      serverWorkerWaitForConnection [quietRound] q = some (.connected, q', []) ∧
      q'.contents = q.contents := by
  have hempty := (createdQueue_reachable (α := ℕ) (show 0 < 4 by decide) (by decide)).represents
  have hone := hempty.pushed (Nat.zero_le _) (by decide) 7
  obtain ⟨q', hwait, -, -, hkeeps⟩ :=
    wait_only_waits_iff hone (by simp) quietRound_polls []
  exact ⟨_, q', by decide, hwait, (hkeeps (by decide)).mpr (by decide)⟩

/-- Of two messages the older one becomes the younger one.
Source: `server_worker.c`, `server_worker_wait_for_connection`
Kind: C -/
theorem wait_reorders_two :
    ∃ q q' : MessageQueue ℕ,
      (createdQueue ℕ 4).runOps [.enqueue 1, .enqueue 2] =
        some ([.enqueued .success [], .enqueued .success []], q) ∧ q.contents = [1, 2] ∧
      serverWorkerWaitForConnection [quietRound] q = some (.connected, q', []) ∧
      q'.contents = [2, 1] :=
  ⟨⟨[some 1, some 2, none, none], 4, 0, 2⟩, ⟨[some 1, some 2, some 1, none], 4, 1, 3⟩, by decide,
    by decide, by decide, by decide⟩

end CpuMonitor.Server
