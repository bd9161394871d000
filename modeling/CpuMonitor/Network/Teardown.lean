import CpuMonitor.Lib.Holding
import CpuMonitor.Network.Message
import CpuMonitor.Network.QueueCalls
import CpuMonitor.Network.Lifecycle

/-!
# What the functions of `network/` acquire and release

The creating and deleting functions of `message.c`, `message_queue.c`, `socket_udp.c` and
`net_connection.c` once more, as programs over what they hold: blocks of memory, a descriptor,
mutexes and condition variables, threads. A function keeps its name, in the namespace `Held`; what
it returns is what its model among the other modules returns (`messageQueueCreate_turns`,
`startThread_turns`, `stopThread_turns`).

* **The resources** of one connection and its owner, `Resource`.
* **Creation**: the labels at the end of `message_queue_create` are programs that fall through.
* **Deletion**: a queue takes its messages with it, but not their data
  (`messageQueueDelete_turns`); a connection joins its threads first (`netConnectionDelete_turns`).
-/

namespace CpuMonitor.Network.Held

open CpuMonitor.Lib CpuMonitor.Lib.Holding

/-! ## The resources -/

/-- The queues of a connection.
Source: none: infrastructure
Kind: D -/
inductive QueueName
  | incoming
  | outgoing
  deriving DecidableEq

/-- What a queue consists of.
Source: `message_queue.c`, `message_queue_create`
Kind: D -/
inductive QueuePart
  | block
  | buffer
  | mutex
  | cond
  deriving DecidableEq

/-- What one connection and its owner acquire; messages are numbered.
Source: none: infrastructure
Kind: D -/
inductive Resource
  /-- The block of the worker. -/
  | owner
  | socketBlock
  | descriptor
  | queue (name : QueueName) (part : QueuePart)
  | connection
  | receiveThread
  | sendThread
  /-- The block of a `message_t`. -/
  | message (id : ℕ)
  /-- The block of its `data`. -/
  | data (id : ℕ)
  deriving DecidableEq

/-! ## Messages -/

/-- A new message, or `NULL`.
Source: `message.c`, `message_create`
Kind: D
Fidelity: exact (a capacity that the first test lets pass) -/
def messageCreate (calls : MessageCreateCalls) (id : ℕ) : Holding Resource Bool := do
  if ← acquire calls.mallocMessage (.message id) then
    if ← acquire calls.mallocData (.data id) then pure true
    else do
      release (.message id)
      pure false
  else pure false

/-- Only the block of the message is freed.
Source: `message.c`, `message_delete`
Kind: D -/
def messageDelete (id : ℕ) : Holding Resource Unit := release (.message id)

/-- A message is created with its data, or nothing is.
Source: `message.c`, `message_create`
Kind: L -/
theorem messageCreate_turns (calls : MessageCreateCalls) (id : ℕ) :
    Turns 0 (messageCreate calls id) (calls.mallocMessage && calls.mallocData)
      (if calls.mallocMessage && calls.mallocData then {.data id} + {.message id} else 0) := by
  refine Turns.tryAcquire (fun hmessage => ?_) (fun hmessage => ?_)
  · rw [hmessage, Bool.true_and]
    refine Turns.tryAcquire (fun hdata => ?_) (fun hdata => ?_)
    · rw [hdata]
      exact Turns.pure.congr (Multiset.singleton_add _ _).symm rfl
    · rw [hdata]
      exact .releaseThen .pure
  · rw [hmessage]
    exact .pure

/-! ## Queues -/

variable {α : Type}

/-- Source: `message_queue.c`, `message_queue_create`, from the label `queue_cleanup` on. Kind: D -/
def queueCleanup (name : QueueName) : Holding Resource (Option (MessageQueue α)) := do
  release (.queue name .block)
  pure none

/-- Source: `message_queue.c`, `message_queue_create`, from the label `queue_buffer_cleanup` on.
Kind: D -/
def queueBufferCleanup (name : QueueName) : Holding Resource (Option (MessageQueue α)) := do
  release (.queue name .buffer)
  queueCleanup name

/-- Source: `message_queue.c`, `message_queue_create`, from the label `queue_mutex_cleanup` on.
Kind: D -/
def queueMutexCleanup (name : QueueName) : Holding Resource (Option (MessageQueue α)) := do
  release (.queue name .mutex)
  queueBufferCleanup name

/-- Source: `message_queue.c`, `message_queue_create`. Kind: D -/
def messageQueueCreate (calls : CreateCalls) (capacity : ℤ) (name : QueueName) :
    Holding Resource (Option (MessageQueue α)) :=
  if capacity ≤ 0 then pure none
  else do
    if ← acquire calls.mallocQueue (.queue name .block) then
      if ← acquire calls.mallocBuffer (.queue name .buffer) then
        if ← acquire calls.mutexInit (.queue name .mutex) then
          if ← acquire calls.condInit (.queue name .cond) then
            pure (some ⟨List.replicate capacity.toNat none, capacity.toNat, 0, 0⟩)
          else queueMutexCleanup name
        else queueBufferCleanup name
      else queueCleanup name
    else pure none

/-- What a queue holds, its messages apart.
Source: `message_queue.c`, `message_queue_create`
Kind: D -/
def queueParts (name : QueueName) : Multiset Resource :=
  {.queue name .mutex, .queue name .cond, .queue name .buffer, .queue name .block}

/-- **A queue is created as a whole or not at all**, and the pointer is the one of
`Network.messageQueueCreate`.
Source: `message_queue.c`, `message_queue_create`
Kind: P -/
theorem messageQueueCreate_turns (calls : CreateCalls) (capacity : ℤ) (name : QueueName) :
    Turns 0 (messageQueueCreate (α := α) calls capacity name)
      (Network.messageQueueCreate calls capacity)
      (if (Network.messageQueueCreate (α := α) calls capacity).isSome then queueParts name
        else 0) := by
  rw [messageQueueCreate, Network.messageQueueCreate]
  by_cases hcapacity : capacity ≤ 0
  · rw [if_pos hcapacity, if_pos hcapacity]
    exact .pure
  · rw [if_neg hcapacity, if_neg hcapacity]
    refine Turns.tryAcquire (fun hqueue => ?_) (fun hqueue => by rw [hqueue]; exact .pure)
    refine Turns.tryAcquire (fun hbuffer => ?_) (fun hbuffer => ?_)
    · refine Turns.tryAcquire (fun hmutex => ?_) (fun hmutex => ?_)
      · refine Turns.tryAcquire (fun hcond => ?_) (fun hcond => ?_)
        · rw [hqueue, hbuffer, hmutex, hcond]
          refine Turns.pure.congr ?_ rfl
          exact Multiset.cons_swap _ _ _
        · rw [hqueue, hbuffer, hmutex, hcond]
          exact .releaseThen (.releaseThen (.releaseThen .pure))
      · rw [hqueue, hbuffer, hmutex]
        exact .releaseThen (.releaseThen .pure)
    · rw [hqueue, hbuffer]
      exact .releaseThen .pure

/-- `message_queue_create(capacity)` returns a queue.
Source: `message_queue.c`, `message_queue_create`
Kind: D -/
def queueCreated (calls : CreateCalls) (capacity : ℤ) : Bool :=
  (Network.messageQueueCreate (α := ℕ) calls capacity).isSome

/-- A queue that is created is empty, whatever its owner.
Source: `message_queue.c`, `message_queue_create`
Kind: L -/
theorem messageQueueCreate_eq (calls : CreateCalls) {capacity : ℕ} (hcapacity : 0 < capacity) :
    Network.messageQueueCreate calls capacity =
      if queueCreated calls capacity then some (createdQueue ℕ capacity) else none := by
  have hpos : ¬(capacity : ℤ) ≤ 0 := by omega
  unfold queueCreated Network.messageQueueCreate createdQueue
  rw [if_neg hpos, Int.toNat_natCast]
  split_ifs <;> simp_all

/-- **The creation of a queue of messages**: `messageQueueCreate_turns` with the empty queue in it.
Source: `message_queue.c`, `message_queue_create`
Kind: P -/
theorem emptyQueueCreate_turns (calls : CreateCalls) {capacity : ℕ} (hcapacity : 0 < capacity)
    (name : QueueName) :
    Turns 0 (messageQueueCreate calls capacity name)
      (if queueCreated calls capacity then some (createdQueue ℕ capacity) else none)
      (if queueCreated calls capacity then queueParts name else 0) := by
  rw [← messageQueueCreate_eq calls hcapacity]
  exact messageQueueCreate_turns calls capacity name

/-- The message blocks of a list of messages.
Source: none: infrastructure
Kind: D -/
def messageBlocks (ids : List ℕ) : Multiset Resource := ids.map Resource.message

/-- The messages that an overflow deletes are released.
Source: `message_queue.c`, `message_queue_enqueue`
Kind: D
Fidelity: exact if the `pthread_*` calls succeed -/
def messageQueueEnqueue (q : MessageQueue ℕ) (id : ℕ) : Holding Resource (MessageQueue ℕ) :=
  match Network.messageQueueEnqueue .allOk q id with
  | none => undefined
  | some (_, q', deleted) => do
      releaseAll (deleted.map .message)
      pure q'

/-- The messages, the two objects of the library and the two blocks, in this order.
Source: `message_queue.c`, `message_queue_delete`
Kind: D -/
def messageQueueDelete (q : MessageQueue ℕ) (name : QueueName) : Holding Resource Unit :=
  match Network.messageQueueDelete q with
  | none => undefined
  | some deleted => do
      releaseAll (deleted.map .message)
      release (.queue name .mutex)
      release (.queue name .cond)
      release (.queue name .buffer)
      release (.queue name .block)

/-- **A queue takes its messages with it.**
Source: `message_queue.c`, `message_queue_delete`
Kind: P -/
theorem messageQueueDelete_turns {q : MessageQueue ℕ} (hq : q.Valid) (name : QueueName) :
    Turns (messageBlocks q.contents + queueParts name) (messageQueueDelete q name) () 0 := by
  rw [messageQueueDelete, MessageQueue.Represents.delete hq]
  have hmessages := (Turns.releaseAll (q.contents.map Resource.message)).frame (queueParts name)
  refine hmessages.bind ?_
  rw [zero_add]
  exact Turns.releaseThen (Turns.releaseThen (Turns.releaseThen Turns.releaseLast))

/-- **A queue that was only created** is deleted as a whole.
Source: `message_queue.c`, `message_queue_create`, `message_queue_delete`
Kind: P -/
theorem emptyQueueDelete_turns {capacity : ℕ} (hcapacity : 0 < capacity)
    (hmax : capacity ≤ intMax) (name : QueueName) :
    Turns (queueParts name) (messageQueueDelete (createdQueue ℕ capacity) name) () 0 := by
  have hvalid := (createdQueue_reachable (α := ℕ) hcapacity hmax).represents.valid
  refine (messageQueueDelete_turns hvalid name).congr ?_ rfl
  rw [contents_createdQueue, messageBlocks, List.map_nil, Multiset.coe_nil, zero_add]

/-- **An enqueue** keeps the messages of the queue and takes the one that joins it.
Source: `message_queue.c`, `message_queue_enqueue`
Kind: P -/
theorem messageQueueEnqueue_turns {q : MessageQueue ℕ} (hq : q.Valid) (hc : 2 ≤ q.capacity)
    (hfit : q.capacity - 1 + q.capacity / 2 ≤ intMax) (id : ℕ) :
    ∃ q', Turns (messageBlocks q.contents + {.message id}) (messageQueueEnqueue q id) q'
        (messageBlocks q'.contents) ∧ q'.Valid ∧ q'.capacity = q.capacity := by
  have hhead := MessageQueue.Represents.head_lt hq
  obtain ⟨q', henqueue, hcapacity, hq'⟩ := MessageQueue.Represents.enqueue hq hc
    EnqueueCalls.allOk_lock id (fun _ => by omega)
  refine ⟨q', ?_, hq'.valid, hcapacity⟩
  have hsplit : messageBlocks q.contents + {.message id} =
      ((fifoEnqueue q.capacity q.contents id).1.map Resource.message : Multiset Resource) +
        messageBlocks q'.contents := by
    have happend := congrArg (fun ids => ((ids.map Resource.message : List Resource) :
      Multiset Resource)) (fifoEnqueue_append q.capacity q.contents id)
    simp only [List.map_append, List.map_cons, List.map_nil, ← Multiset.coe_add] at happend
    rw [hq'.contents_eq]
    exact happend.symm
  rw [messageQueueEnqueue, henqueue, hsplit]
  refine ((Turns.releaseAll _).frame _).bind ?_
  rw [zero_add]
  exact .pure

/-! ## Sockets -/

/-- Which calls of `udp_socket_create` succeed.
Source: `socket_udp.c`, `udp_socket_create`
Kind: D -/
structure SocketCalls where
  malloc : Bool
  socket : Bool

/-- A socket, or `NULL`.
Source: `socket_udp.c`, `udp_socket_create`
Kind: D -/
def udpSocketCreate (calls : SocketCalls) : Holding Resource Bool := do
  if ← acquire calls.malloc .socketBlock then
    if ← acquire calls.socket .descriptor then pure true
    else do
      release .socketBlock
      pure false
  else pure false

/-- Source: `socket_udp.c`, `udp_socket_delete`. Kind: D -/
def udpSocketDelete : Holding Resource Unit := do
  release .descriptor
  release .socketBlock

/-- What a socket holds.
Source: `socket_udp.c`, `udp_socket_create`
Kind: D -/
def socketParts : Multiset Resource := {.descriptor, .socketBlock}

/-- A socket is created with its descriptor, or nothing is.
Source: `socket_udp.c`, `udp_socket_create`
Kind: L -/
theorem udpSocketCreate_turns (calls : SocketCalls) :
    Turns 0 (udpSocketCreate calls) (calls.malloc && calls.socket)
      (if calls.malloc && calls.socket then socketParts else 0) := by
  refine Turns.tryAcquire (fun hmalloc => ?_) (fun hmalloc => ?_)
  · rw [hmalloc, Bool.true_and]
    refine Turns.tryAcquire (fun hsocket => ?_) (fun hsocket => ?_)
    · rw [hsocket]
      exact .pure
    · rw [hsocket]
      exact .releaseThen .pure
  · rw [hmalloc]
    exact .pure

/-- A deletion releases both.
Source: `socket_udp.c`, `udp_socket_delete`
Kind: L -/
theorem udpSocketDelete_turns : Turns socketParts udpSocketDelete () 0 :=
  Turns.releaseThen Turns.releaseLast

/-! ## Threads -/

/-- The thread, if its flag is set.
Source: none: infrastructure
Kind: D -/
def threadIf (running : Bool) (thread : Resource) : Multiset Resource :=
  if running then {thread} else 0

/-- The threads of a connection.
Source: none: infrastructure
Kind: D -/
def threads (c : ThreadFlags) : Multiset Resource :=
  threadIf c.isReceiving .receiveThread + threadIf c.isSending .sendThread

/-- Source: `net_connection.c`, the common body of `net_connection_start_receiving` and
`net_connection_start_sending`. Kind: D -/
def startThread (running create : Bool) (thread : Resource) :
    Holding Resource (NetConnectionStatus × Bool) :=
  if running then pure (.success, running)
  else do
    if ← acquire create thread then pure (.success, true) else pure (.errorThread, false)

/-- Source: `net_connection.c`, the common body of `net_connection_stop_receiving` and
`net_connection_stop_sending`. Kind: D -/
def stopThread (running join : Bool) (thread : Resource) :
    Holding Resource (NetConnectionStatus × Bool) :=
  if !running then pure (.success, running)
  else if !join then pure (.errorThread, false)
  else do
    release thread
    pure (.success, false)

/-- **A start** holds a thread exactly if the flag is set after it.
Source: `net_connection.c`, `net_connection_start_receiving`, `net_connection_start_sending`
Kind: P -/
theorem startThread_turns (running create : Bool) (thread : Resource) :
    Turns (threadIf running thread) (startThread running create thread)
      (Network.startThread running create)
      (threadIf (Network.startThread running create).2 thread) := by
  cases running with
  | true => exact .pure
  | false =>
      refine Turns.tryAcquire (fun hcreate => ?_) (fun hcreate => ?_)
      · rw [hcreate]
        exact .pure
      · rw [hcreate]
        exact .pure

/-- **A stop** leaves no thread if the `pthread_join` that it makes succeeds.
Source: `net_connection.c`, `net_connection_stop_receiving`, `net_connection_stop_sending`
Kind: P -/
theorem stopThread_turns {running join : Bool} (hjoin : running = true → join = true)
    (thread : Resource) :
    Turns (threadIf running thread) (stopThread running join thread)
      (Network.stopThread running join) 0 := by
  cases running with
  | true =>
      rw [hjoin rfl]
      exact Turns.releaseLast.bind .pure
  | false => exact .pure

/-- Both stops, whose statuses nobody looks at.
Source: `net_connection.c`, `net_connection_stop_receiving`, `net_connection_stop_sending`
Kind: D -/
def stopThreads (joins : StopCalls) (c : ThreadFlags) : Holding Resource ThreadFlags := do
  let (_, isReceiving) ← stopThread c.isReceiving joins.receive .receiveThread
  let (_, isSending) ← stopThread c.isSending joins.send .sendThread
  pure ⟨isReceiving, isSending⟩

/-- Every `pthread_join` that the two stops make succeeds.
Source: `net_connection.c`, `net_connection_stop_receiving`, `net_connection_stop_sending`
Kind: D -/
structure Joined (joins : StopCalls) (c : ThreadFlags) : Prop where
  receive : c.isReceiving = true → joins.receive = true
  send : c.isSending = true → joins.send = true

/-- Successful joins are enough for any connection.
Source: none: infrastructure
Kind: L -/
theorem Joined.allOk (c : ThreadFlags) : Joined ⟨true, true⟩ c := ⟨fun _ => rfl, fun _ => rfl⟩

/-- A connection that was never started makes no join.
Source: none: infrastructure
Kind: L -/
theorem Joined.init (joins : StopCalls) : Joined joins .init :=
  ⟨fun h => absurd h Bool.false_ne_true, fun h => absurd h Bool.false_ne_true⟩

/-- **Both stops** leave no thread and no flag.
Source: `net_connection.c`, `net_connection_stop_receiving`, `net_connection_stop_sending`
Kind: P -/
theorem stopThreads_turns {joins : StopCalls} {c : ThreadFlags} (h : Joined joins c) :
    Turns (threads c) (stopThreads joins c) .init 0 := by
  refine ((stopThread_turns h.receive .receiveThread).frame
    (threadIf c.isSending .sendThread)).bind ?_
  rw [zero_add]
  refine (stopThread_turns h.send .sendThread).bind ?_
  show Turns 0 (pure (ThreadFlags.mk (Network.stopThread c.isReceiving joins.receive).2
    (Network.stopThread c.isSending joins.send).2)) _ _
  rw [stopThread_snd, stopThread_snd]
  exact .pure

/-! ## Connections -/

/-- The pointers and the flags of a connection.
Source: `net_connection.h`, `net_connection_t`
Kind: D -/
structure Connection where
  flags : ThreadFlags
  incoming : MessageQueue ℕ
  outgoing : MessageQueue ℕ

/-- A connection, or `NULL`; `socket` is whether there is one.
Source: `net_connection.c`, `net_connection_create`
Kind: D
Fidelity: exact (the result of `setsockopt` is not looked at) -/
def netConnectionCreate (malloc socket : Bool) (incoming outgoing : Option (MessageQueue ℕ))
    (receiveTimeout sendTimeout : ℤ) : Holding Resource (Option Connection) :=
  match socket, incoming, outgoing with
  | true, some incoming, some outgoing =>
      if receiveTimeout < 0 ∨ sendTimeout < 0 then pure none
      else do
        if ← acquire malloc .connection then pure (some ⟨.init, incoming, outgoing⟩) else pure none
  | _, _, _ => pure none

/-- The block of a connection is acquired, or nothing is.
Source: `net_connection.c`, `net_connection_create`
Kind: L -/
theorem netConnectionCreate_turns (malloc : Bool) (incoming outgoing : MessageQueue ℕ)
    {receiveTimeout sendTimeout : ℤ} (hreceive : 0 ≤ receiveTimeout) (hsend : 0 ≤ sendTimeout) :
    Turns 0
      (netConnectionCreate malloc true (some incoming) (some outgoing) receiveTimeout sendTimeout)
      (if malloc then some ⟨.init, incoming, outgoing⟩ else none)
      (if malloc then {.connection} else 0) := by
  rw [netConnectionCreate, if_neg (by omega)]
  refine Turns.tryAcquire (fun hmalloc => ?_) (fun hmalloc => ?_)
  · rw [hmalloc]
    exact .pure
  · rw [hmalloc]
    exact .pure

/-- Source: `net_connection.c`, `net_connection_delete`. Kind: D
Fidelity: exact (the pointers of a connection that was created are not null) -/
def netConnectionDelete (joins : StopCalls) (c : Connection) : Holding Resource Unit := do
  let _ ← stopThreads joins c.flags
  udpSocketDelete
  messageQueueDelete c.incoming .incoming
  messageQueueDelete c.outgoing .outgoing
  release .connection

/-- What a connection holds, its threads and messages apart.
Source: `net_connection.c`, `net_connection_create`
Kind: D -/
def connectionParts : Multiset Resource :=
  socketParts + queueParts .incoming + queueParts .outgoing + {.connection}

/-- The messages in the queues of a connection.
Source: none: infrastructure
Kind: D -/
def Connection.messages (c : Connection) : Multiset Resource :=
  messageBlocks c.incoming.contents + messageBlocks c.outgoing.contents

/-- What a connection holds.
Source: none: infrastructure
Kind: D -/
def Connection.holdings (c : Connection) : Multiset Resource :=
  threads c.flags + c.messages + connectionParts

/-- **A deletion** whose joins succeed releases all that a connection holds.
Source: `net_connection.c`, `net_connection_delete`
Kind: P -/
theorem netConnectionDelete_turns {joins : StopCalls} {c : Connection}
    (hjoins : Joined joins c.flags) (hincoming : c.incoming.Valid) (houtgoing : c.outgoing.Valid) :
    Turns c.holdings (netConnectionDelete joins c) () 0 := by
  -- everything in the order in which it is released
  have horder : c.holdings =
      threads c.flags + (socketParts + (messageBlocks c.incoming.contents + queueParts .incoming +
        (messageBlocks c.outgoing.contents + queueParts .outgoing + {.connection}))) := by
    rw [Connection.holdings, Connection.messages, connectionParts]
    abel
  rw [horder]
  refine ((stopThreads_turns hjoins).frame _).bind ?_
  rw [zero_add]
  refine (udpSocketDelete_turns.frame _).bind ?_
  rw [zero_add]
  refine ((messageQueueDelete_turns hincoming _).frame _).bind ?_
  rw [zero_add]
  refine ((messageQueueDelete_turns houtgoing _).frame _).bind ?_
  rw [zero_add]
  exact Turns.releaseLast

end CpuMonitor.Network.Held
