import CpuMonitor.Network.Teardown
import CpuMonitor.Server.Flow
import CpuMonitor.Server.Journal
import CpuMonitor.Server.WorkerLifecycle

/-!
# What the server holds

`server/server_worker.c`, from `server_worker_create` to `server_worker_delete`, and
`server/journal.c`, from `journal_create` to `journal_delete`: what is held at every moment and what
is left in the end.

* **Creation** `serverWorkerCreate`: the labels undo what was acquired before them, but for the case
  of one queue of two: its label does not delete the other one. `serverWorkerCreate_turns` is exact,
  and `worker_create_cleans_up_iff` says when nothing is left.
* **The life** `lifeStep`: calls of `server_worker_start` and `server_worker_stop`, and rounds of
  the three loops. `Worker.holdings` is what a worker holds, and every step keeps it so
  (`lifeStep_turns`, `lifeRun_turns`).
* **The end** `worker_life_leaves_data`: after any life the deletion releases everything exactly
  once, but for the data of the messages: one block for each message ever received.
* **The journal** `journalLife_turns`: it is created as a whole or not at all, and deleted as a
  whole or, if `munmap` fails, not at all.
-/

namespace CpuMonitor.Server.Held

open CpuMonitor.Lib CpuMonitor.Lib.Holding CpuMonitor.Network CpuMonitor.Network.Held

/-! ## Creation -/

/-- Which calls of `server_worker_create` succeed.
Source: `server_worker.c`, `server_worker_create`
Kind: D -/
structure WorkerCalls where
  malloc : Bool
  socket : SocketCalls
  bind : Bool
  incoming : CreateCalls
  outgoing : CreateCalls
  connection : Bool

/-- A worker, with the numbers of the messages in its queues and of those created so far.
Source: `server_worker.c`, `server_worker_create`
Kind: D -/
structure Worker where
  worker : ServerWorker
  incoming : MessageQueue ℕ
  outgoing : MessageQueue ℕ
  created : ℕ

/-- Source: `server_worker.c`, `server_worker_create`, from the label
`server_worker_socket_create_failed` on. Kind: D -/
def serverWorkerSocketCreateFailed : Holding Resource (Option Worker) := do
  release .owner
  pure none

/-- Source: `server_worker.c`, `server_worker_create`, from the label
`server_worker_socket_bind_failed` on. Kind: D -/
def serverWorkerSocketBindFailed : Holding Resource (Option Worker) := do
  udpSocketDelete
  serverWorkerSocketCreateFailed

/-- Source: `server_worker.c`, `server_worker_create`, from the label
`server_worker_queue_create_failed` on. Kind: D -/
def serverWorkerQueueCreateFailed (incoming outgoing : MessageQueue ℕ) :
    Holding Resource (Option Worker) := do
  messageQueueDelete incoming .incoming
  messageQueueDelete outgoing .outgoing
  serverWorkerSocketBindFailed

/-- The part of `server_worker_create` after the `bind`. A failed creation of a queue goes to the
label of a failed `bind`.
Source: `server_worker.c`, `server_worker_create`
Kind: D -/
def serverWorkerConnect (calls : WorkerCalls) : Holding Resource (Option Worker) := do
  let incoming ← messageQueueCreate calls.incoming serverMessageQueueSize .incoming
  let outgoing ← messageQueueCreate calls.outgoing serverMessageQueueSize .outgoing
  match incoming, outgoing with
  | some incoming, some outgoing =>
      let connection ←
        netConnectionCreate calls.connection true (some incoming) (some outgoing) 1 1
      match connection with
      | some c => pure (some ⟨⟨false, c.flags⟩, c.incoming, c.outgoing, 0⟩)
      | none => serverWorkerQueueCreateFailed incoming outgoing
  | _, _ => serverWorkerSocketBindFailed

/-- A worker, or `NULL`.
Source: `server_worker.c`, `server_worker_create`
Kind: D
Fidelity: exact -/
def serverWorkerCreate (calls : WorkerCalls) : Holding Resource (Option Worker) := do
  if ← acquire calls.malloc .owner then
    if ← udpSocketCreate calls.socket then
      if !calls.bind then serverWorkerSocketBindFailed else serverWorkerConnect calls
    else serverWorkerSocketCreateFailed
  else pure none

/-- What a worker holds, its threads and messages apart.
Source: `server_worker.c`, `server_worker_create`
Kind: D -/
def workerParts : Multiset Resource := {.owner} + connectionParts

/-- The calls before the queues succeed.
Source: `server_worker.c`, `server_worker_create`
Kind: D -/
def WorkerCalls.reachesQueues (calls : WorkerCalls) : Bool :=
  calls.malloc && (calls.socket.malloc && calls.socket.socket) && calls.bind

/-- An empty queue of a worker.
Source: `server_worker.c`, `server_worker_create`
Kind: D -/
def newQueue : MessageQueue ℕ := createdQueue ℕ serverMessageQueueSize

/-- It is a valid queue.
Source: `server_worker.c`, `server_worker_create`
Kind: L -/
theorem newQueue_valid : newQueue.Valid :=
  (createdQueue_reachable (show 0 < serverMessageQueueSize by decide)
    (by decide)).represents.valid

/-- It is empty.
Source: `server_worker.c`, `server_worker_create`
Kind: L -/
theorem newQueue_contents : newQueue.contents = [] := contents_createdQueue serverMessageQueueSize

/-- There is an incoming queue.
Source: `server_worker.c`, `server_worker_create`
Kind: D -/
def WorkerCalls.incomingCreated (calls : WorkerCalls) : Bool :=
  queueCreated calls.incoming serverMessageQueueSize

/-- There is an outgoing queue.
Source: `server_worker.c`, `server_worker_create`
Kind: D -/
def WorkerCalls.outgoingCreated (calls : WorkerCalls) : Bool :=
  queueCreated calls.outgoing serverMessageQueueSize

/-- The queue that is left over when only one of the two is created.
Source: `server_worker.c`, `server_worker_create`
Kind: D -/
def leftQueue (incoming outgoing : Bool) : Multiset Resource :=
  match incoming, outgoing with
  | true, false => queueParts .incoming
  | false, true => queueParts .outgoing
  | _, _ => 0

/-- Every call succeeds.
Source: `server_worker.c`, `server_worker_create`
Kind: D -/
def WorkerCalls.allOk (calls : WorkerCalls) : Bool :=
  calls.reachesQueues && calls.incomingCreated && calls.outgoingCreated &&
    calls.connection

/-- A worker that has just been created.
Source: `server_worker.c`, `server_worker_create`
Kind: D -/
def newWorker : Worker := ⟨.init, newQueue, newQueue, 0⟩

/-- The last label releases the worker.
Source: `server_worker.c`, `server_worker_create`
Kind: L -/
theorem serverWorkerSocketCreateFailed_turns :
    Turns {.owner} serverWorkerSocketCreateFailed none 0 :=
  Turns.releaseLast.bind .pure

/-- The label of a failed `bind` releases the socket and the worker.
Source: `server_worker.c`, `server_worker_create`
Kind: L -/
theorem serverWorkerSocketBindFailed_turns :
    Turns (socketParts + {.owner}) serverWorkerSocketBindFailed none 0 := by
  refine (udpSocketDelete_turns.frame _).bind ?_
  rw [zero_add]
  exact serverWorkerSocketCreateFailed_turns

/-- The last label but one releases both queues as well.
Source: `server_worker.c`, `server_worker_create`
Kind: L -/
theorem serverWorkerQueueCreateFailed_turns :
    Turns (queueParts .incoming + (queueParts .outgoing + (socketParts + {.owner})))
      (serverWorkerQueueCreateFailed newQueue newQueue) none 0 := by
  have hdelete : ∀ name, Turns (queueParts name) (messageQueueDelete newQueue name) () 0 :=
    emptyQueueDelete_turns (by decide) (by decide)
  refine ((hdelete .incoming).frame _).bind ?_
  rw [zero_add]
  refine ((hdelete .outgoing).frame _).bind ?_
  rw [zero_add]
  exact serverWorkerSocketBindFailed_turns

/-- From the creation of the queues on.
Source: `server_worker.c`, `server_worker_create`
Kind: L -/
theorem serverWorkerConnect_turns (calls : WorkerCalls) :
    Turns (socketParts + {.owner}) (serverWorkerConnect calls)
      (if calls.incomingCreated && calls.outgoingCreated && calls.connection then
        some newWorker else none)
      (if calls.incomingCreated && calls.outgoingCreated && calls.connection then
        workerParts
      else leftQueue (calls.incomingCreated) (calls.outgoingCreated)) := by
  have hincoming := emptyQueueCreate_turns calls.incoming
    (show 0 < serverMessageQueueSize by decide) .incoming
  have houtgoing := emptyQueueCreate_turns calls.outgoing
    (show 0 < serverMessageQueueSize by decide) .outgoing
  rw [WorkerCalls.incomingCreated, WorkerCalls.outgoingCreated]
  refine ((hincoming.frame _).congr (zero_add _).symm rfl).bind ?_
  refine ((houtgoing.frame _).congr (zero_add _).symm rfl).bind ?_
  cases queueCreated calls.incoming serverMessageQueueSize with
  | false =>
      cases queueCreated calls.outgoing serverMessageQueueSize with
      | false =>
          refine serverWorkerSocketBindFailed_turns.congr ?_ rfl
          simp
      | true =>
          refine (serverWorkerSocketBindFailed_turns.frame (queueParts .outgoing)).congr ?_ ?_
          · simp [add_comm]
          · simp [leftQueue]
  | true =>
      cases queueCreated calls.outgoing serverMessageQueueSize with
      | false =>
          refine (serverWorkerSocketBindFailed_turns.frame (queueParts .incoming)).congr ?_ ?_
          · simp [add_comm]
          · simp [leftQueue]
      | true =>
          have hconnection := netConnectionCreate_turns calls.connection newQueue newQueue
            (show (0 : ℤ) ≤ 1 by decide) (show (0 : ℤ) ≤ 1 by decide)
          refine ((hconnection.frame _).congr (zero_add _).symm rfl).bind ?_
          cases calls.connection with
          | false =>
              refine serverWorkerQueueCreateFailed_turns.congr ?_ rfl
              simp only [Bool.false_eq_true, if_false, if_true, zero_add]
              abel
          | true =>
              refine Turns.pure.congr ?_ rfl
              simp only [if_true, Bool.and_self, workerParts, connectionParts]
              abel

/-- **What a creation holds in the end**, for every outcome of its calls.
Source: `server_worker.c`, `server_worker_create`
Kind: P -/
theorem serverWorkerCreate_turns (calls : WorkerCalls) :
    Turns 0 (serverWorkerCreate calls) (if calls.allOk then some newWorker else none)
      (if calls.allOk then workerParts
        else if calls.reachesQueues then
          leftQueue (calls.incomingCreated) (calls.outgoingCreated)
        else 0) := by
  rw [WorkerCalls.allOk, WorkerCalls.reachesQueues]
  refine Turns.tryAcquire (fun hmalloc => ?_) (fun hmalloc => by rw [hmalloc]; exact .pure)
  refine ((udpSocketCreate_turns calls.socket).frame {.owner}).congr ?_ rfl |>.bind ?_
  · rw [zero_add]; rfl
  rw [hmalloc]
  cases calls.socket.malloc && calls.socket.socket with
  | false => exact serverWorkerSocketCreateFailed_turns.congr (zero_add _) rfl
  | true =>
      cases calls.bind with
      | false => exact serverWorkerSocketBindFailed_turns
      | true => exact serverWorkerConnect_turns calls

/-- **A failed creation cleans up exactly if it does not fail at one of the two queues.** For every
outcome of the calls in `server_worker_create`: if it returns a worker, every call has succeeded and
what is held are the parts of the worker; if it returns `NULL`, nothing is held, unless exactly one
of the two queues was created: then the four parts of that queue are held, and nothing else.
Source: `server_worker.c`, `server_worker_create`; `message_queue.c`, `message_queue_create`,
`message_queue_delete`; `socket_udp.c`, `udp_socket_create`, `udp_socket_delete`;
`net_connection.c`, `net_connection_create`
Kind: P -/
theorem worker_create_cleans_up_iff (calls : WorkerCalls) :
    ∃ result held, Turns 0 (serverWorkerCreate calls) result held ∧
      (result.isSome = true ↔ calls.allOk = true) ∧
      (result.isSome = true → held = workerParts) ∧
      (result = none → (held ≠ 0 ↔ calls.reachesQueues = true ∧
        calls.incomingCreated ≠ calls.outgoingCreated)) ∧
      (result = none → held ≠ 0 → held =
        queueParts (if calls.incomingCreated then .incoming else .outgoing)) := by
  refine ⟨_, _, serverWorkerCreate_turns calls, ?_⟩
  cases hok : calls.allOk with
  | true => simp
  | false =>
      cases hreaches : calls.reachesQueues with
      | false => simp
      | true =>
          cases calls.incomingCreated <;> cases calls.outgoingCreated <;>
            simp [leftQueue, queueParts]

/-! ## Start and stop -/

/-- Source: `server_worker.c`, `server_worker_start`. Kind: D -/
def serverWorkerStart (calls : StartCalls) (w : ServerWorker) :
    Holding Resource (ServerWorkerStatus × ServerWorker) :=
  if w.isRunning then pure (.success, w)
  else do
    let (received, isReceiving) ←
      startThread w.connection.isReceiving calls.receive .receiveThread
    let c₁ := { w.connection with isReceiving := isReceiving }
    if received ≠ .success then pure (.errorStartThreads, ⟨false, c₁⟩)
    else
      let (sent, isSending) ← startThread c₁.isSending calls.send .sendThread
      let c₂ := { c₁ with isSending := isSending }
      if sent ≠ .success then pure (.errorStartThreads, ⟨false, c₂⟩)
      else pure (.success, ⟨true, c₂⟩)

/-- Source: `server_worker.c`, `server_worker_stop`. Kind: D -/
def serverWorkerStop (joins : StopCalls) (w : ServerWorker) :
    Holding Resource (ServerWorkerStatus × ServerWorker) :=
  if !w.isRunning then pure (.success, w)
  else do
    let c ← stopThreads joins w.connection
    pure (.success, ⟨false, c⟩)

/-- **A start** does what `Server.serverWorkerStart` says, and holds a thread for each flag.
Source: `server_worker.c`, `server_worker_start`
Kind: P -/
theorem serverWorkerStart_turns (calls : StartCalls) (w : ServerWorker) :
    Turns (threads w.connection) (serverWorkerStart calls w) (Server.serverWorkerStart calls w)
      (threads (Server.serverWorkerStart calls w).2.connection) := by
  obtain ⟨isRunning, isReceiving, isSending⟩ := w
  cases isRunning with
  | true => exact .pure
  | false =>
      have hreceive := startThread_turns isReceiving calls.receive .receiveThread
      refine (hreceive.frame (threadIf isSending .sendThread)).bind ?_
      have hsend := startThread_turns isSending calls.send .sendThread
      simp only [Server.serverWorkerStart, netConnectionStartReceiving, netConnectionStartSending,
        Bool.false_eq_true, if_false]
      by_cases hreceived : (Network.startThread isReceiving calls.receive).1 = .success
      · simp only [hreceived, ne_eq, not_true_eq_false, if_false]
        refine ((hsend.frame _).congr (add_comm _ _) (add_comm _ _)).bind ?_
        by_cases hsent : (Network.startThread isSending calls.send).1 = .success
        · simp only [hsent, not_true_eq_false, if_false]
          exact .pure
        · simp only [hsent, not_false_eq_true, if_true]
          exact .pure
      · simp only [hreceived, ne_eq, not_false_eq_true, if_true]
        exact .pure

/-- **A stop** whose joins succeed.
Source: `server_worker.c`, `server_worker_stop`
Kind: P -/
theorem serverWorkerStop_turns (w : ServerWorker) :
    Turns (threads w.connection) (serverWorkerStop ⟨true, true⟩ w)
      (Server.serverWorkerStop ⟨true, true⟩ w)
      (threads (Server.serverWorkerStop ⟨true, true⟩ w).2.connection) := by
  obtain ⟨isRunning, isReceiving, isSending⟩ := w
  cases isRunning with
  | false => exact .pure
  | true =>
      have hstop : Server.serverWorkerStop ⟨true, true⟩ ⟨true, isReceiving, isSending⟩ =
          (.success, .init) := by
        simp [Server.serverWorkerStop, netConnectionStopReceiving, netConnectionStopSending,
          stopThread_snd, ServerWorker.init, ThreadFlags.init]
      rw [hstop]
      exact (stopThreads_turns (.allOk _)).bind .pure

/-! ## The life -/

/-- The calls on a worker, and the rounds of its three loops.
Source: `server_worker.c`, `server_worker_start`, `server_worker_stop`, `server_worker_update`
Kind: D -/
inductive LifeLabel
  | start (calls : StartCalls)
  | stop (joins : StopCalls)
  /-- A datagram arrives; the calls are those of `message_create`. -/
  | receive (calls : MessageCreateCalls)
  /-- A round of `server_worker_update`. -/
  | handle
  | send

/-- One call, or one round of a loop with all its `pthread_*` calls successful. A round of a loop
that does not run does nothing.
Source: `server_worker.c`, `server_worker_start`, `server_worker_stop`, `server_worker_update`;
`net_connection.c`, `net_connection_receive_thread_func`, `net_connection_send_thread_func`
Kind: D
Fidelity: rounds are taken one at a time; the worker function and `sendto` hold nothing (`realloc`
moves a data block, which keeps its number) -/
def lifeStep (w : Worker) : LifeLabel → Holding Resource Worker
  | .start calls => do
      let (_, worker) ← serverWorkerStart calls w.worker
      pure { w with worker := worker }
  | .stop joins => do
      let (_, worker) ← serverWorkerStop joins w.worker
      pure { w with worker := worker }
  | .receive calls =>
      if !w.worker.connection.isReceiving then pure w
      else do
        if ← messageCreate calls w.created then
          let incoming ← messageQueueEnqueue w.incoming w.created
          pure { w with incoming := incoming, created := w.created + 1 }
        else pure w
  | .handle =>
      if !w.worker.isRunning then pure w
      else
        match messageQueueDequeueNonblocking .allOk w.incoming with
        | none => undefined
        | some (none, incoming) => pure { w with incoming := incoming }
        | some (some id, incoming) => do
            let outgoing ← messageQueueEnqueue w.outgoing id
            pure { w with incoming := incoming, outgoing := outgoing }
  | .send =>
      if !w.worker.connection.isSending then pure w
      else
        match messageQueueDequeueNonblocking .allOk w.outgoing with
        | none => undefined
        | some (none, outgoing) => pure { w with outgoing := outgoing }
        | some (some id, outgoing) => do
            messageDelete id
            pure { w with outgoing := outgoing }

/-- The calls and rounds of a list, in order.
Source: `server_worker.c`, `server_worker_start`, `server_worker_stop`, `server_worker_update`
Kind: D -/
def lifeRun : Worker → List LifeLabel → Holding Resource Worker
  | w, [] => pure w
  | w, l :: ls => do
      let w' ← lifeStep w l
      lifeRun w' ls

/-- The worker is stopped, its connection deleted, and its block freed.
Source: `server_worker.c`, `server_worker_delete`
Kind: D -/
def serverWorkerDelete (joins again : StopCalls) (w : Worker) : Holding Resource Unit := do
  let (_, worker) ← serverWorkerStop joins w.worker
  netConnectionDelete again ⟨worker.connection, w.incoming, w.outgoing⟩
  release .owner

/-- A worker from its creation to its deletion: the number of messages it has received, or `none` if
it was not created.
Source: `server_worker.c`, `server_worker_create`, `server_worker_delete`
Kind: D -/
def workerLife (calls : WorkerCalls) (ls : List LifeLabel) (joins again : StopCalls) :
    Holding Resource (Option ℕ) := do
  match ← serverWorkerCreate calls with
  | none => pure none
  | some w => do
      let w' ← lifeRun w ls
      serverWorkerDelete joins again w'
      pure (some w'.created)

/-- The data of the messages created so far.
Source: none: infrastructure
Kind: D -/
def dataBlocks (created : ℕ) : Multiset Resource := (List.range created).map Resource.data

/-- What a worker holds beside its threads: the messages in its queues, the data of all messages
there ever were, and its parts.
Source: none: infrastructure
Kind: D -/
def Worker.heldBesides (w : Worker) : Multiset Resource :=
  messageBlocks w.incoming.contents + messageBlocks w.outgoing.contents + dataBlocks w.created +
    workerParts

/-- What a worker holds, with a thread for each flag.
Source: none: infrastructure
Kind: D -/
def Worker.holdings (w : Worker) : Multiset Resource :=
  threads w.worker.connection + w.heldBesides

/-- The queues are as `server_worker_create` makes them.
Source: none: infrastructure
Kind: D -/
structure Worker.WellFormed (w : Worker) : Prop where
  incoming : w.incoming.Valid
  outgoing : w.outgoing.Valid
  incoming_capacity : w.incoming.capacity = serverMessageQueueSize
  outgoing_capacity : w.outgoing.capacity = serverMessageQueueSize

/-- The joins of a stop succeed.
Source: none: infrastructure
Kind: D -/
def LifeLabel.JoinsOk : LifeLabel → Prop
  | .stop joins => joins = ⟨true, true⟩
  | _ => True

/-- One more message, one more block of data.
Source: none: infrastructure
Kind: L -/
theorem dataBlocks_succ (created : ℕ) :
    dataBlocks (created + 1) = {.data created} + dataBlocks created := by
  rw [dataBlocks, List.range_succ, List.map_append, ← Multiset.coe_add, add_comm]
  rfl

/-- An enqueue to a queue of a worker.
Source: `message_queue.c`, `message_queue_enqueue`
Kind: L -/
theorem enqueue_turns {q : MessageQueue ℕ} (hq : q.Valid)
    (hcapacity : q.capacity = serverMessageQueueSize) (id : ℕ) :
    ∃ q', Turns (messageBlocks q.contents + {.message id}) (messageQueueEnqueue q id) q'
        (messageBlocks q'.contents) ∧ q'.Valid ∧ q'.capacity = serverMessageQueueSize := by
  have h := messageQueueEnqueue_turns hq (by rw [hcapacity]; decide) (by rw [hcapacity]; decide) id
  rwa [hcapacity] at h

/-- A dequeue from a queue of a worker takes the oldest message out, if there is one.
Source: `message_queue.c`, `message_queue_dequeue_nonblocking`
Kind: L -/
theorem dequeue_cases {q : MessageQueue ℕ} (hq : q.Valid) :
    messageQueueDequeueNonblocking .allOk q = some (none, q) ∨
      ∃ id q', messageQueueDequeueNonblocking .allOk q = some (some id, q') ∧ q'.Valid ∧
        q'.capacity = q.capacity ∧
        messageBlocks q.contents = {.message id} + messageBlocks q'.contents := by
  obtain ⟨r, q', hdequeue, hcapacity, ⟨rfl, rfl, -⟩ | ⟨id, rest, hcontents, hq', -, rfl⟩⟩ :=
    MessageQueue.Represents.dequeueNonblocking hq .allOk
  · exact .inl hdequeue
  · refine .inr ⟨id, q', hdequeue, hq'.valid, hcapacity, ?_⟩
    rw [hcontents, hq'.contents_eq]
    rfl

/-- **Every step keeps the account.**
Source: `server_worker.c`, `server_worker_start`, `server_worker_stop`, `server_worker_update`
Kind: P -/
theorem lifeStep_turns {w : Worker} (hw : w.WellFormed) {l : LifeLabel} (hl : l.JoinsOk) :
    ∃ w', Turns w.holdings (lifeStep w l) w' w'.holdings ∧ w'.WellFormed := by
  obtain ⟨hincoming, houtgoing, hin, hout⟩ := hw
  cases l with
  | start calls =>
      refine ⟨{ w with worker := (Server.serverWorkerStart calls w.worker).2 }, ?_,
        ⟨hincoming, houtgoing, hin, hout⟩⟩
      have hstart := (serverWorkerStart_turns calls w.worker).frame w.heldBesides
      exact hstart.bind .pure
  | stop joins =>
      obtain rfl : joins = ⟨true, true⟩ := hl
      refine ⟨{ w with worker := (Server.serverWorkerStop ⟨true, true⟩ w.worker).2 }, ?_,
        ⟨hincoming, houtgoing, hin, hout⟩⟩
      have hstop := (serverWorkerStop_turns w.worker).frame w.heldBesides
      exact hstop.bind .pure
  | receive calls =>
      rw [lifeStep]
      split_ifs with hreceiving
      · exact ⟨w, .pure, hincoming, houtgoing, hin, hout⟩
      have hcreate := messageCreate_turns calls w.created
      cases hok : calls.mallocMessage && calls.mallocData with
      | false =>
          rw [hok] at hcreate
          refine ⟨w, ?_, hincoming, houtgoing, hin, hout⟩
          exact ((hcreate.frame _).congr (zero_add _).symm (zero_add _)).bind .pure
      | true =>
          rw [hok] at hcreate
          obtain ⟨incoming, henqueue, hvalid, hcapacity⟩ := enqueue_turns hincoming hin w.created
          refine ⟨{ w with incoming := incoming, created := w.created + 1 }, ?_,
            hvalid, houtgoing, hcapacity, hout⟩
          refine ((hcreate.frame _).congr (zero_add _).symm rfl).bind ?_
          -- the message goes to the queue, its data to the data of all
          refine ((henqueue.frame (threads w.worker.connection +
            messageBlocks w.outgoing.contents + dataBlocks (w.created + 1) + workerParts)).congr
              ?_ ?_).bind .pure
          · rw [if_pos rfl, Worker.holdings, Worker.heldBesides, dataBlocks_succ]
            abel
          · rw [Worker.holdings, Worker.heldBesides]
            abel
  | handle =>
      rw [lifeStep]
      split_ifs with hrunning
      · exact ⟨w, .pure, hincoming, houtgoing, hin, hout⟩
      rcases dequeue_cases hincoming with hempty | ⟨id, incoming, hdequeue, hvalid, hcap, hblocks⟩
      · rw [hempty]
        exact ⟨w, .pure, hincoming, houtgoing, hin, hout⟩
      · obtain ⟨outgoing, henqueue, hvalid', hcapacity⟩ := enqueue_turns houtgoing hout id
        rw [hdequeue]
        refine ⟨{ w with incoming := incoming, outgoing := outgoing }, ?_, hvalid, hvalid',
          hcap.trans hin, hcapacity⟩
        refine ((henqueue.frame (threads w.worker.connection + messageBlocks incoming.contents +
          dataBlocks w.created + workerParts)).congr ?_ ?_).bind .pure
        · rw [Worker.holdings, Worker.heldBesides, hblocks]
          abel
        · rw [Worker.holdings, Worker.heldBesides]
          abel
  | send =>
      rw [lifeStep]
      split_ifs with hsending
      · exact ⟨w, .pure, hincoming, houtgoing, hin, hout⟩
      rcases dequeue_cases houtgoing with hempty | ⟨id, outgoing, hdequeue, hvalid, hcap, hblocks⟩
      · rw [hempty]
        exact ⟨w, .pure, hincoming, houtgoing, hin, hout⟩
      · rw [hdequeue]
        refine ⟨{ w with outgoing := outgoing }, ?_, hincoming, hvalid, hin, hcap.trans hout⟩
        have hdelete : Turns {.message id} (messageDelete id) () 0 := Turns.releaseLast
        refine ((hdelete.frame ({ w with outgoing := outgoing } : Worker).holdings).congr ?_
          (zero_add _)).bind .pure
        rw [Worker.holdings, Worker.heldBesides, Worker.holdings, Worker.heldBesides, hblocks]
        abel

/-- **Every run keeps the account**, by induction on the calls and rounds.
Source: `server_worker.c`, `server_worker_start`, `server_worker_stop`, `server_worker_update`
Kind: P -/
theorem lifeRun_turns {w : Worker} (hw : w.WellFormed) {ls : List LifeLabel}
    (hls : ∀ l ∈ ls, l.JoinsOk) :
    ∃ w', Turns w.holdings (lifeRun w ls) w' w'.holdings ∧ w'.WellFormed := by
  induction ls generalizing w with
  | nil => exact ⟨w, .pure, hw⟩
  | cons l ls ih =>
      obtain ⟨hl, hrest⟩ := List.forall_mem_cons.mp hls
      obtain ⟨w₁, hstep, hw₁⟩ := lifeStep_turns hw hl
      obtain ⟨w', hrun, hw'⟩ := ih hw₁ hrest
      exact ⟨w', hstep.bind hrun, hw'⟩

/-! ## The end -/

/-- **A deletion** whose joins succeed leaves the data of the messages.
Source: `server_worker.c`, `server_worker_delete`
Kind: P -/
theorem serverWorkerDelete_turns {w : Worker} (hw : w.WellFormed) :
    Turns w.holdings (serverWorkerDelete ⟨true, true⟩ ⟨true, true⟩ w) ()
      (dataBlocks w.created) := by
  refine ((serverWorkerStop_turns w.worker).frame w.heldBesides).bind ?_
  have hdelete := netConnectionDelete_turns
    (c := ⟨(Server.serverWorkerStop ⟨true, true⟩ w.worker).2.connection, w.incoming, w.outgoing⟩)
    (.allOk _) hw.incoming hw.outgoing
  refine ((hdelete.frame ({.owner} + dataBlocks w.created)).congr ?_ (zero_add _)).bind ?_
  · rw [Worker.heldBesides, Connection.holdings, Connection.messages, workerParts]
    abel
  · exact (Turns.releaseLast.frame (dataBlocks w.created)).congr rfl (zero_add _)

/-- A new worker is well formed.
Source: `server_worker.c`, `server_worker_create`
Kind: L -/
theorem newWorker_wellFormed : newWorker.WellFormed :=
  ⟨newQueue_valid, newQueue_valid, rfl, rfl⟩

/-- It holds nothing beside its parts.
Source: `server_worker.c`, `server_worker_create`
Kind: L -/
theorem newWorker_holdings : newWorker.holdings = workerParts := by
  rw [Worker.holdings, Worker.heldBesides, newWorker, newQueue_contents]
  simp [threads, threadIf, ServerWorker.init, ThreadFlags.init, messageBlocks, dataBlocks]

/-- **After any life the deletion releases everything but the data of the messages.** For every
outcome of the calls in `server_worker_create`, every sequence of `server_worker_start` and
`server_worker_stop` with any outcomes of `pthread_create` (so also after a start that failed half
way), and rounds of the three loops between them: if the worker was created, its deletion releases
its blocks, its descriptor, its threads, its queues with their mutexes and the messages in them,
each exactly once; what is left are the data blocks of all messages it ever received, one for each.
Source: `server_worker.c`, `server_worker_create`, `server_worker_start`, `server_worker_stop`,
`server_worker_delete`; `net_connection.c`, `net_connection_delete`; `message_queue.c`,
`message_queue_delete`; `message.c`, `message_delete`
Kind: P
Hyps: every `pthread_join` succeeds -/
theorem worker_life_leaves_data {calls : WorkerCalls} (hcalls : calls.allOk = true)
    {ls : List LifeLabel} (hls : ∀ l ∈ ls, l.JoinsOk) :
    ∃ received, Turns 0 (workerLife calls ls ⟨true, true⟩ ⟨true, true⟩) (some received)
      (dataBlocks received) := by
  have hcreate := serverWorkerCreate_turns calls
  rw [hcalls] at hcreate
  obtain ⟨w, hrun, hw⟩ := lifeRun_turns newWorker_wellFormed hls
  rw [newWorker_holdings] at hrun
  refine ⟨w.created, hcreate.bind ?_⟩
  exact hrun.bind ((serverWorkerDelete_turns hw).bind .pure)

/-- Every call succeeds.
Source: none: infrastructure
Kind: D -/
def quietCalls : WorkerCalls := ⟨true, ⟨true, true⟩, true, .allOk, .allOk, true⟩

/-- A start that fails half way, and a message for the thread that runs nevertheless.
Source: none: infrastructure
Kind: D -/
def halfStarted : List LifeLabel := [.start ⟨true, false⟩, .receive .allOk]

/-- Its data is all that is left.
Source: `server_worker.c`, `server_worker_create`, `server_worker_delete`
Kind: C -/
theorem worker_life_leaves_data_half_started :
    Turns 0 (workerLife quietCalls halfStarted ⟨true, true⟩ ⟨true, true⟩) (some 1)
      (dataBlocks 1) := by
  have hls : ∀ l ∈ halfStarted, l.JoinsOk := by
    simp [halfStarted, LifeLabel.JoinsOk]
  obtain ⟨received, h⟩ := worker_life_leaves_data (show quietCalls.allOk = true by decide) hls
  have hcount : ((workerLife quietCalls halfStarted ⟨true, true⟩ ⟨true, true⟩) 0).map Prod.fst =
      some (some 1) := by decide +kernel
  have hreturned := congrArg (Option.map Prod.fst) (h 0)
  rw [add_zero, hcount] at hreturned
  obtain rfl : 1 = received := Option.some.inj (Option.some.inj hreturned)
  exact h

/-! ## The journal -/

/-- What a journal acquires; the attribute object only lives in `journal_create`.
Source: `journal.c`, `journal_create`
Kind: D -/
inductive JournalResource
  | block
  | mapping
  | attr
  | mutex
  deriving DecidableEq

/-- Source: `journal.c`, `journal_create`, from the label `journal_create_map_failed` on. Kind: D -/
def journalCreateMapFailed : Holding JournalResource (Option Journal) := do
  release .block
  pure none

/-- Source: `journal.c`, `journal_create`, from the label `journal_create_mutex_failed` on.
Kind: D -/
def journalCreateMutexFailed : Holding JournalResource (Option Journal) := do
  release .mapping
  journalCreateMapFailed

/-- Source: `journal.c`, `journal_create`, from the label `journal_create_attr_failed` on.
Kind: D -/
def journalCreateAttrFailed : Holding JournalResource (Option Journal) := do
  release .attr
  journalCreateMutexFailed

/-- Source: `journal.c`, `journal_create`. Kind: D -/
def journalCreate (calls : JournalCreateCalls) (size : ℕ) :
    Holding JournalResource (Option Journal) :=
  if size ≤ sizeofSizeT then pure none
  else do
    if ← acquire calls.malloc .block then
      if ← acquire calls.mmap .mapping then
        match storeSize (List.Vector.replicate size 0) sizeofSizeT with
        | none => undefined
        | some region =>
            if ← acquire calls.attrInit .attr then
              if !calls.attrSetpshared then journalCreateAttrFailed
              else if ← acquire calls.mutexInit .mutex then do
                release .attr
                pure (some ⟨size, region⟩)
              else journalCreateAttrFailed
            else journalCreateMutexFailed
      else journalCreateMapFailed
    else pure none

/-- Source: `journal.c`, `journal_delete`. Kind: D
Fidelity: exact (the result of `pthread_mutex_destroy` is only logged) -/
def journalDelete (munmap : Bool) : Holding JournalResource JournalStatus :=
  if !munmap then pure .errorMunmap
  else do
    release .mapping
    release .mutex
    release .block
    pure .success

/-- The journal of `main`: created, and deleted in the end.
Source: `server.c`, `main`
Kind: D -/
def journalLife (calls : JournalCreateCalls) (size : ℕ) (munmap : Bool) :
    Holding JournalResource (Option JournalStatus) := do
  match ← journalCreate calls size with
  | none => pure none
  | some _ => do
      let status ← journalDelete munmap
      pure (some status)

/-- What a journal holds.
Source: `journal.c`, `journal_create`
Kind: D -/
def journalParts : Multiset JournalResource := {.mapping, .mutex, .block}

/-- **A journal is created as a whole or not at all.**
Source: `journal.c`, `journal_create`
Kind: P -/
theorem journalCreate_turns (calls : JournalCreateCalls) (size : ℕ) :
    Turns 0 (journalCreate calls size) (Server.journalCreate calls size)
      (if (Server.journalCreate calls size).isSome then journalParts else 0) := by
  rw [journalCreate, Server.journalCreate]
  by_cases hsize : size ≤ sizeofSizeT
  · rw [if_pos hsize, if_pos hsize]
    exact .pure
  · have hword : 0 + (leBytes sizeofSizeT sizeofSizeT).length ≤ size := by
      simp
      omega
    obtain ⟨region, hstore, -⟩ :=
      storeVec_of_le (v := List.Vector.replicate size (0 : UInt8)) hword
    have hsizeWord : storeSize (List.Vector.replicate size 0) sizeofSizeT = some region := hstore
    rw [if_neg hsize, if_neg hsize, hsizeWord, Option.bind_eq_bind, Option.bind_some]
    refine Turns.tryAcquire (fun hmalloc => ?_) (fun hmalloc => by rw [hmalloc]; exact .pure)
    refine Turns.tryAcquire (fun hmmap => ?_) (fun hmmap => ?_)
    · refine Turns.tryAcquire (fun hattr => ?_) (fun hattr => ?_)
      · rw [hmalloc, hmmap, hattr]
        cases calls.attrSetpshared with
        | false => exact .releaseThen (.releaseThen (.releaseThen .pure))
        | true =>
            refine Turns.tryAcquire (fun hmutex => ?_) (fun hmutex => ?_)
            · rw [hmutex]
              refine (Turns.releaseThen .pure).congr (Multiset.cons_swap _ _ _) ?_
              exact Multiset.cons_swap _ _ _
            · rw [hmutex]
              exact .releaseThen (.releaseThen (.releaseThen .pure))
      · rw [hmalloc, hmmap, hattr]
        exact .releaseThen (.releaseThen .pure)
    · rw [hmalloc, hmmap]
      exact .releaseThen .pure

/-- **And deleted as a whole, or not at all**: if `munmap` fails, nothing of it is released.
Source: `journal.c`, `journal_create`, `journal_delete`; `server.c`, `main`
Kind: P -/
theorem journalLife_turns (calls : JournalCreateCalls) (size : ℕ) (munmap : Bool) :
    Turns 0 (journalLife calls size munmap)
      ((Server.journalCreate calls size).map fun _ =>
        if munmap then .success else .errorMunmap)
      (if (Server.journalCreate calls size).isSome ∧ munmap = false then journalParts else 0) := by
  refine (journalCreate_turns calls size).bind ?_
  cases Server.journalCreate calls size with
  | none => exact .pure
  | some j =>
      cases munmap with
      | false => exact Turns.pure.bind .pure
      | true =>
          have hdelete : Turns journalParts (journalDelete true) .success 0 := by
            unfold journalDelete journalParts
            exact .releaseThen (.releaseThen (Turns.releaseLast.bind .pure))
          exact hdelete.bind .pure

end CpuMonitor.Server.Held
