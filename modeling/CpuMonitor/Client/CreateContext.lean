import CpuMonitor.Network.Teardown

/-!
# Creating and deleting a client context

`client/client.c`, `client_create_context` and `client_delete_context`: one round per port acquires
a socket, two queues and a connection. Three labels at the end of the function undo a round that
fails; nothing undoes the rounds before it.

* **The code's model** `createRound`, `createLoop`, `clientCreateContext`, programs over what they
  hold, with the outcome of every call as an input. The parts of a port's connection are acquired
  and released by the programs of `Network.Held`, the ones that the server uses too. The local
  pointers live across the rounds, as in the source.
* **What a round does**: it leaves the parts of one more connection (`createRound_of_succeeds`), or
  goes to a label from which on all that the round holds is released (`createRound_of_fails`).
* `create_context_cleans_up_iff` — a creation that returns `NULL` has released everything exactly
  if no round was completed before the one that failed.
* `create_then_delete_cleans_up_iff` — after a successful creation the deletion does release
  everything, but for an array that is lost on the way.
-/

namespace CpuMonitor.Client

open CpuMonitor.Lib CpuMonitor.Lib.Holding CpuMonitor.Network

/-! ## The data model -/

/-- Source: `client.h`, `client_mode_t`. Kind: D -/
inductive ClientMode
  | normal
  | fuzz
  deriving DecidableEq, Repr

/-- What a creation can acquire: the parts of the connection of each port, and the blocks of the
context. `context->connections` is allocated twice.
Source: `client.c`, `client_create_context`
Kind: D -/
inductive Resource
  | port (i : ℕ) (r : Held.Resource)
  | context
  | sockaddrs
  | firstArray
  | secondArray
  deriving DecidableEq

/-- The part of port `i` that a resource is, if it is one.
Source: none: infrastructure
Kind: D -/
def Resource.partOf (i : ℕ) : Resource → Option Held.Resource
  | .port j r => if j = i then some r else none
  | _ => none

/-- Only the parts of port `i` are found at port `i`.
Source: none: infrastructure
Kind: L -/
theorem Resource.port_of_partOf {i : ℕ} {s : Resource} {r : Held.Resource}
    (h : s.partOf i = some r) : .port i r = s := by
  cases s with
  | port j r' =>
      simp only [Resource.partOf, Option.ite_none_right_eq_some, Option.some.injEq] at h
      rw [h.1, h.2]
  | context | sockaddrs | firstArray | secondArray => cases h

/-- The connection of port `i` as a part of the context.
Source: none: infrastructure
Kind: D -/
def portParts (i : ℕ) : Parts Held.Resource Resource where
  embed := .port i
  part := Resource.partOf i
  part_embed := fun _ => if_pos rfl
  embed_of_part := Resource.port_of_partOf

/-- Sockets, queues and connections, as opposed to the blocks of the context.
Source: none: infrastructure
Kind: D -/
def Resource.counted : Resource → Bool
  | .port _ _ => true
  | _ => false

/-- The sockets, queues and connections among what is held.
Source: none: infrastructure
Kind: D -/
def counted (held : Multiset Resource) : Multiset Resource :=
  held.filter fun r => r.counted = true

/-- Which calls before the loop succeed.
Source: `client.c`, `client_create_context`
Kind: D -/
structure ContextCalls where
  mallocContext : Bool
  mallocSockaddrs : Bool
  mallocFirstArray : Bool
  mallocSecondArray : Bool

/-- Which calls of a round succeed: those of `udp_socket_create`, `udp_socket_bind`, the two
`message_queue_create` and `net_connection_create`.
Source: `client.c`, `client_create_context`
Kind: D -/
structure RoundCalls where
  socket : Held.SocketCalls
  bind : Bool
  incoming : CreateCalls
  outgoing : CreateCalls
  connection : Bool

/-- The local variables of `client_create_context` and the arrays of the context. A pointer to a
socket is the round that has created it; one to a queue has the queue with it.
Source: `client.c`, `client_create_context`
Kind: D -/
structure CreateVars where
  socket : Option ℕ
  incomingQueue : Option (ℕ × MessageQueue ℕ)
  outgoingQueue : Option (ℕ × MessageQueue ℕ)
  sockaddrs : List SockaddrIn
  connections : List Held.Connection

/-- The labels at the end of the function.
Source: `client.c`, `client_create_context`
Kind: D -/
inductive CreateLabel
  | queueCreateFailed
  | socketBindFailed
  | socketCreateFailed

/-- The context that is returned; the connection number `i` is the one of round `i`.
Source: `client.h`, `client_context_t`
Kind: D -/
structure CreatedContext where
  mode : ClientMode
  portCount : ℕ
  isRunning : Bool
  sockaddrs : List SockaddrIn
  connections : List Held.Connection

/-! ## The code's model -/

/-- `htons`.
Source: `client.c`, `client_create_context`
Kind: D -/
def htons (x : UInt16) : UInt16 := x <<< 8 ||| x >>> 8

/-- `server_sockaddrs[i]` after the three assignments; the padding is as `malloc` returned it.
Source: `client.c`, `client_create_context`
Kind: D -/
def serverSockaddr (serverAddr : UInt32) (port : BitVec 32) (padding : UInt64) : SockaddrIn :=
  ⟨2, htons (UInt16.ofNat port.toNat), serverAddr, padding⟩

/-- The capacity of a client's queues.
Source: `client.c`, `client_create_context`
Kind: D -/
def clientQueueCapacity : ℤ := 5

/-- `udp_socket_delete`, which does nothing for `NULL`.
Source: `socket_udp.c`, `udp_socket_delete`
Kind: D -/
def deleteSocket : Option ℕ → Holding Resource Unit
  | none => pure ()
  | some i => within (portParts i) Held.udpSocketDelete

/-- `message_queue_delete`, which does nothing for `NULL`.
Source: `message_queue.c`, `message_queue_delete`
Kind: D -/
def deleteQueue (name : Held.QueueName) : Option (ℕ × MessageQueue ℕ) → Holding Resource Unit
  | none => pure ()
  | some (i, q) => within (portParts i) (Held.messageQueueDelete q name)

/-- The part of a round after the `bind`.
Source: `client.c`, `client_create_context` (the body of the `for`)
Kind: D -/
def connectRound (calls : RoundCalls) (i : ℕ) (v : CreateVars) :
    Holding Resource (Except (CreateLabel × CreateVars) CreateVars) := do
  let incoming ← within (portParts i)
    (Held.messageQueueCreate calls.incoming clientQueueCapacity .incoming)
  let outgoing ← within (portParts i)
    (Held.messageQueueCreate calls.outgoing clientQueueCapacity .outgoing)
  let v := { v with
    incomingQueue := incoming.map fun q => (i, q), outgoingQueue := outgoing.map fun q => (i, q) }
  if incoming.isNone || outgoing.isNone then pure (.error (.queueCreateFailed, v))
  else
    let connection ← within (portParts i)
      (Held.netConnectionCreate calls.connection v.socket.isSome incoming outgoing 1 1)
    match connection with
    | none => pure (.error (.queueCreateFailed, v))
    | some c => pure (.ok { v with connections := v.connections ++ [c] })

/-- One round of the loop: it goes to a label, or on.
Source: `client.c`, `client_create_context` (the body of the `for`)
Kind: D
Fidelity: exact -/
def createRound (serverAddr : UInt32) (padding : ℕ → UInt64) (calls : RoundCalls)
    (port : BitVec 32) (i : ℕ) (v : CreateVars) :
    Holding Resource (Except (CreateLabel × CreateVars) CreateVars) := do
  let socket ← within (portParts i) (Held.udpSocketCreate calls.socket)
  let v := { v with socket := if socket then some i else none }
  if !socket then pure (.error (.socketCreateFailed, v))
  else if !calls.bind then pure (.error (.socketBindFailed, v))
  else
    connectRound calls i
      { v with sockaddrs := v.sockaddrs ++ [serverSockaddr serverAddr port (padding i)] }

/-- The loop, from round `i` on.
Source: `client.c`, `client_create_context` (the `for`)
Kind: D -/
def createLoop (serverAddr : UInt32) (padding : ℕ → UInt64) (rounds : ℕ → RoundCalls) :
    List (BitVec 32) → ℕ → CreateVars →
      Holding Resource (Except (CreateLabel × CreateVars) CreateVars)
  | [], _, v => pure (.ok v)
  | port :: ports, i, v => do
      match ← createRound serverAddr padding (rounds i) port i v with
      | .error exit => pure (.error exit)
      | .ok v' => createLoop serverAddr padding rounds ports (i + 1) v'

/-- From the label `client_context_socket_create_failed` on, and the end of the deletion.
Source: `client.c`, `client_create_context`, `client_delete_context`
Kind: D -/
def freeBlocks : Holding Resource Unit := do
  release .sockaddrs
  release .secondArray
  release .context

/-- From the label `client_context_socket_bind_failed` on.
Source: `client.c`, `client_create_context`
Kind: D -/
def clientContextSocketBindFailed (v : CreateVars) : Holding Resource Unit := do
  deleteSocket v.socket
  freeBlocks

/-- From the label `client_context_queue_create_failed` on.
Source: `client.c`, `client_create_context`
Kind: D -/
def clientContextQueueCreateFailed (v : CreateVars) : Holding Resource Unit := do
  deleteQueue .incoming v.incomingQueue
  deleteQueue .outgoing v.outgoingQueue
  clientContextSocketBindFailed v

/-- From a label to the end of the function.
Source: `client.c`, `client_create_context` (the labels)
Kind: D -/
def cleanup (v : CreateVars) : CreateLabel → Holding Resource Unit
  | .queueCreateFailed => clientContextQueueCreateFailed v
  | .socketBindFailed => clientContextSocketBindFailed v
  | .socketCreateFailed => freeBlocks

/-- The loop and what follows it.
Source: `client.c`, `client_create_context`
Kind: D -/
def createConnections (mode : ClientMode) (serverAddr : UInt32) (ports : List (BitVec 32))
    (rounds : ℕ → RoundCalls) (padding : ℕ → UInt64) :
    Holding Resource (Option CreatedContext) := do
  match ← createLoop serverAddr padding rounds ports 0 ⟨none, none, none, [], []⟩ with
  | .ok v => pure (some ⟨mode, ports.length, false, v.sockaddrs, v.connections⟩)
  | .error (label, v) => do
      cleanup v label
      pure none

/-- The context, or `NULL`. There are `port_count` ports.
Source: `client.c`, `client_create_context`
Kind: D
Fidelity: exact (a `port_count` that is not positive, or a null `ports_arr`, is the empty list) -/
def clientCreateContext (mode : ClientMode) (serverAddr : UInt32) (ports : List (BitVec 32))
    (calls : ContextCalls) (rounds : ℕ → RoundCalls) (padding : ℕ → UInt64) :
    Holding Resource (Option CreatedContext) :=
  if serverAddr = 0 ∨ ports.length = 0 then pure none
  else do
    if ← acquire calls.mallocContext .context then
      let sockaddrs ← acquire calls.mallocSockaddrs .sockaddrs
      -- the pointer to this array is overwritten below
      let _ ← acquire calls.mallocFirstArray .firstArray
      if !sockaddrs then do
        release .context
        pure none
      else if ← acquire calls.mallocSecondArray .secondArray then
        createConnections mode serverAddr ports rounds padding
      else do
        release .sockaddrs
        release .context
        pure none
    else pure none

/-- The loop of `client_stop`, from the connection number `i` on.
Source: `client.c`, `client_stop`
Kind: D -/
def stopConnections (joins : ℕ → StopCalls) :
    ℕ → List Held.Connection → Holding Resource (List Held.Connection)
  | _, [] => pure []
  | i, c :: cs => do
      let flags ← within (portParts i) (Held.stopThreads (joins i) c.flags)
      let cs' ← stopConnections joins (i + 1) cs
      pure ({ c with flags := flags } :: cs')

/-- The loop of `client_delete_context`, from the connection number `i` on.
Source: `client.c`, `client_delete_context`
Kind: D -/
def deleteConnections (joins : ℕ → StopCalls) :
    ℕ → List Held.Connection → Holding Resource Unit
  | _, [] => pure ()
  | i, c :: cs => do
      within (portParts i) (Held.netConnectionDelete (joins i) c)
      deleteConnections joins (i + 1) cs

/-- The joins are those of `client_stop` and those of the deletions of the connections.
Source: `client.c`, `client_delete_context`, `client_stop`
Kind: D
Fidelity: exact (non-null context) -/
def clientDeleteContext (joins again : ℕ → StopCalls) (context : CreatedContext) :
    Holding Resource Unit := do
  let connections ←
    if !context.isRunning then pure context.connections
    else stopConnections joins 0 context.connections
  deleteConnections again 0 connections
  freeBlocks

/-! ## What is held -/

/-- What the parts of a connection are, at port `i`.
Source: `client.c`, `client_create_context`
Kind: D -/
def portHoldings (i : ℕ) : Multiset Resource := Held.connectionParts.map (Resource.port i)

/-- The blocks that the last label frees.
Source: `client.c`, `client_create_context`
Kind: D -/
def blocks : Multiset Resource := {.sockaddrs, .secondArray, .context}

/-- The array that no pointer leads to any more.
Source: `client.c`, `client_create_context`
Kind: D -/
def lostArray (calls : ContextCalls) : Multiset Resource :=
  if calls.mallocFirstArray then {.firstArray} else 0

/-- What connections hold, the first of them at port `i`.
Source: none: infrastructure
Kind: D -/
def connectionsHold : ℕ → List Held.Connection → Multiset Resource
  | _, [] => 0
  | i, c :: cs => c.holdings.map (Resource.port i) + connectionsHold (i + 1) cs

/-- A connection that has just been created.
Source: `net_connection.c`, `net_connection_create`
Kind: D -/
def newConnection : Held.Connection := ⟨.init, createdQueue ℕ 5, createdQueue ℕ 5⟩

/-- It holds nothing beside its parts.
Source: `net_connection.c`, `net_connection_create`
Kind: L -/
theorem newConnection_holdings : newConnection.holdings = Held.connectionParts := by
  rw [Held.Connection.holdings, Held.Connection.messages, newConnection, contents_createdQueue]
  simp [Held.threads, Held.threadIf, ThreadFlags.init, Held.messageBlocks]

/-- One more connection at the end.
Source: none: infrastructure
Kind: L -/
theorem connectionsHold_append (i : ℕ) (cs : List Held.Connection) (c : Held.Connection) :
    connectionsHold i (cs ++ [c]) =
      connectionsHold i cs + c.holdings.map (Resource.port (i + cs.length)) := by
  induction cs generalizing i with
  | nil => exact add_comm _ _
  | cons d cs ih =>
      rw [List.cons_append, connectionsHold, connectionsHold, ih, List.length_cons, ← add_assoc,
        Nat.add_right_comm i 1, Nat.add_assoc i]

/-- All that connections hold are sockets, queues and connections.
Source: none: infrastructure
Kind: L -/
theorem counted_connectionsHold (i : ℕ) (cs : List Held.Connection) :
    counted (connectionsHold i cs) = connectionsHold i cs := by
  induction cs generalizing i with
  | nil => rfl
  | cons c cs ih =>
      have hport : counted (c.holdings.map (Resource.port i)) =
          c.holdings.map (Resource.port i) := by
        refine Multiset.filter_eq_self.mpr fun r hr => ?_
        obtain ⟨r', -, rfl⟩ := Multiset.mem_map.mp hr
        rfl
      have hrest := ih (i + 1)
      unfold counted at hport hrest ⊢
      rw [connectionsHold, Multiset.filter_add, hport, hrest]

/-- What is counted, piece by piece.
Source: none: infrastructure
Kind: L -/
theorem counted_add (held held' : Multiset Resource) :
    counted (held + held') = counted held + counted held' :=
  Multiset.filter_add ..

/-- The lost array is a block.
Source: none: infrastructure
Kind: L -/
theorem counted_lostArray (calls : ContextCalls) : counted (lostArray calls) = 0 := by
  unfold lostArray
  split_ifs <;> rfl

/-! ## One round -/

/-- There is an incoming queue.
Source: `client.c`, `client_create_context`
Kind: D -/
def RoundCalls.incomingCreated (calls : RoundCalls) : Bool :=
  Held.queueCreated calls.incoming clientQueueCapacity

/-- There is an outgoing queue.
Source: `client.c`, `client_create_context`
Kind: D -/
def RoundCalls.outgoingCreated (calls : RoundCalls) : Bool :=
  Held.queueCreated calls.outgoing clientQueueCapacity

/-- Every call of the round succeeds.
Source: `client.c`, `client_create_context`
Kind: D -/
def RoundCalls.succeeds (calls : RoundCalls) : Bool :=
  calls.socket.malloc && calls.socket.socket && calls.bind && calls.incomingCreated &&
    calls.outgoingCreated && calls.connection

/-- A queue's parts at port `i`, if it is created.
Source: none: infrastructure
Kind: D -/
def queueIf (created : Bool) (name : Held.QueueName) (i : ℕ) : Multiset Resource :=
  if created then (Held.queueParts name).map (Resource.port i) else 0

/-- The parts of a socket at port `i`.
Source: none: infrastructure
Kind: D -/
def socketAt (i : ℕ) : Multiset Resource := Held.socketParts.map (Resource.port i)

section round

variable (serverAddr : UInt32) (padding : ℕ → UInt64) {calls : RoundCalls} (port : BitVec 32)
  (i : ℕ) (v : CreateVars) {F : Multiset Resource}

/-- A pointer to a queue that is created, or `NULL`.
Source: `client.c`, `client_create_context`
Kind: D -/
def queuePointer (created : Bool) : Option (MessageQueue ℕ) :=
  if created then some (createdQueue ℕ 5) else none

/-- `message_queue_create(5)` in round `i`.
Source: `client.c`, `client_create_context`
Kind: L -/
theorem createQueue_turns (queueCalls : CreateCalls) (name : Held.QueueName) :
    Turns F
      (within (portParts i) (Held.messageQueueCreate queueCalls clientQueueCapacity name))
      (queuePointer (Held.queueCreated queueCalls clientQueueCapacity))
      (F + queueIf (Held.queueCreated queueCalls clientQueueCapacity) name i) := by
  have hcreate : Turns 0 (Held.messageQueueCreate queueCalls clientQueueCapacity name)
      (queuePointer (Held.queueCreated queueCalls clientQueueCapacity))
      (if Held.queueCreated queueCalls clientQueueCapacity then Held.queueParts name else 0) :=
    Held.emptyQueueCreate_turns queueCalls (show 0 < 5 by decide) name
  refine (hcreate.withinNew (portParts i)).congr rfl ?_
  cases Held.queueCreated queueCalls clientQueueCapacity <;> rfl

/-- `message_queue_delete` gives back what the creation has acquired.
Source: `client.c`, `client_create_context`
Kind: L -/
theorem deleteQueue_turns (created : Bool) (name : Held.QueueName) :
    Turns (F + queueIf created name i)
      (deleteQueue name ((queuePointer created).map fun q => (i, q))) () F := by
  cases created with
  | false => exact Turns.pure.congr (add_zero F) rfl
  | true =>
      exact (Held.emptyQueueDelete_turns (by decide) (by decide) name).withinLast (portParts i)

/-- `udp_socket_delete` of the round's socket.
Source: `client.c`, `client_create_context`
Kind: L -/
theorem deleteSocket_turns : Turns (F + socketAt i) (deleteSocket (some i)) () F :=
  Held.udpSocketDelete_turns.withinLast (portParts i)

/-- The blocks are freed.
Source: `client.c`, `client_create_context`
Kind: L -/
theorem freeBlocks_turns : Turns blocks freeBlocks () 0 :=
  .releaseThen (.releaseThen Turns.releaseLast)

/-- From the middle label on, the round's socket and the blocks are released.
Source: `client.c`, `client_create_context`
Kind: L -/
theorem clientContextSocketBindFailed_turns (hsocket : v.socket = some i) :
    Turns (blocks + socketAt i) (clientContextSocketBindFailed v) () 0 := by
  rw [clientContextSocketBindFailed, hsocket]
  exact (deleteSocket_turns i).bind freeBlocks_turns

/-- From the first label on, the queues that were created as well.
Source: `client.c`, `client_create_context`
Kind: L -/
theorem clientContextQueueCreateFailed_turns (incoming outgoing : Bool)
    (hsocket : v.socket = some i)
    (hincoming : v.incomingQueue = (queuePointer incoming).map fun q => (i, q))
    (houtgoing : v.outgoingQueue = (queuePointer outgoing).map fun q => (i, q)) :
    Turns (blocks + socketAt i + queueIf outgoing .outgoing i + queueIf incoming .incoming i)
      (clientContextQueueCreateFailed v) () 0 := by
  rw [clientContextQueueCreateFailed, hincoming, houtgoing]
  refine (deleteQueue_turns i incoming .incoming).bind ?_
  refine (deleteQueue_turns i outgoing .outgoing).bind ?_
  exact clientContextSocketBindFailed_turns i v hsocket

/-- The parts of a connection in the order in which a round acquires them.
Source: `client.c`, `client_create_context`
Kind: L -/
theorem portHoldings_eq : portHoldings i = socketAt i + queueIf true .incoming i +
    queueIf true .outgoing i + {.port i .connection} := by
  unfold portHoldings Held.connectionParts socketAt queueIf
  simp only [Multiset.map_add, if_true, Multiset.map_singleton]

/-- The locals after the two creations.
Source: `client.c`, `client_create_context`
Kind: D -/
def CreateVars.withQueues (v : CreateVars) (incoming outgoing : Bool) (i : ℕ) : CreateVars :=
  { v with
    incomingQueue := (queuePointer incoming).map fun q => (i, q)
    outgoingQueue := (queuePointer outgoing).map fun q => (i, q) }

/-- With both queues, `net_connection_create` decides.
Source: `client.c`, `client_create_context`
Kind: L -/
theorem connectRound_of_queues (hsocket : v.socket = some i)
    (hincoming : calls.incomingCreated = true) (houtgoing : calls.outgoingCreated = true) :
    Turns F (connectRound calls i v)
      (if calls.connection then
        .ok { v.withQueues true true i with connections := v.connections ++ [newConnection] }
      else .error (.queueCreateFailed, v.withQueues true true i))
      (F + queueIf true .incoming i + queueIf true .outgoing i +
        if calls.connection then {.port i .connection} else 0) := by
  obtain ⟨socket, incomingQueue, outgoingQueue, sockaddrs, connections⟩ := v
  obtain rfl : socket = some i := hsocket
  have hin := createQueue_turns i (F := F) calls.incoming .incoming
  rw [show Held.queueCreated calls.incoming clientQueueCapacity = true from hincoming] at hin
  have hout := createQueue_turns i (F := F + queueIf true .incoming i) calls.outgoing .outgoing
  rw [show Held.queueCreated calls.outgoing clientQueueCapacity = true from houtgoing] at hout
  have hconnection := (Held.netConnectionCreate_turns calls.connection (createdQueue ℕ 5)
    (createdQueue ℕ 5) (show (0 : ℤ) ≤ 1 by decide) (show (0 : ℤ) ≤ 1 by decide)).withinNew
    (portParts i) (F := F + queueIf true .incoming i + queueIf true .outgoing i)
  refine hin.bind (hout.bind ?_)
  simp only [queuePointer, if_true, Option.isNone_some, Bool.or_self, Bool.false_eq_true, if_false,
    Option.map_some, Option.isSome_some]
  refine hconnection.bind ?_
  cases calls.connection with
  | false => exact .pure
  | true => exact .pure

/-- Without one of them the round goes to the label.
Source: `client.c`, `client_create_context`
Kind: L -/
theorem connectRound_of_missing
    (h : (calls.incomingCreated && calls.outgoingCreated) = false) :
    Turns F (connectRound calls i v)
      (.error (.queueCreateFailed, v.withQueues calls.incomingCreated calls.outgoingCreated i))
      (F + queueIf calls.incomingCreated .incoming i +
        queueIf calls.outgoingCreated .outgoing i) := by
  have hin := createQueue_turns i (F := F) calls.incoming .incoming
  have hout := createQueue_turns i (F := F + queueIf calls.incomingCreated .incoming i)
    calls.outgoing .outgoing
  refine hin.bind (hout.bind ?_)
  have hmissing : ((queuePointer calls.incomingCreated).isNone ||
      (queuePointer calls.outgoingCreated).isNone) = true := by
    cases hincoming : calls.incomingCreated <;> cases houtgoing : calls.outgoingCreated <;>
      simp_all [queuePointer]
  rw [show (Held.queueCreated calls.incoming clientQueueCapacity) = calls.incomingCreated from rfl,
    show (Held.queueCreated calls.outgoing clientQueueCapacity) = calls.outgoingCreated from rfl]
  simp only [hmissing, if_true]
  exact .pure

/-- A round up to the `bind`.
Source: `client.c`, `client_create_context`
Kind: L -/
theorem createRound_of_bound (hmalloc : calls.socket.malloc = true)
    (hopen : calls.socket.socket = true) (hbind : calls.bind = true)
    {result : Except (CreateLabel × CreateVars) CreateVars} {Q : Multiset Resource}
    (h : Turns (F + socketAt i) (connectRound calls i
      { v with
        socket := some i
        sockaddrs := v.sockaddrs ++ [serverSockaddr serverAddr port (padding i)] }) result Q) :
    Turns F (createRound serverAddr padding calls port i v) result Q := by
  have hsocket := (Held.udpSocketCreate_turns calls.socket).withinNew (portParts i) (F := F)
  rw [hmalloc, hopen] at hsocket
  refine hsocket.bind ?_
  simp only [hbind, Bool.not_true, Bool.false_eq_true, if_false, Bool.and_self, if_true]
  exact h

/-- **A round whose calls succeed** leaves the parts of one more connection.
Source: `client.c`, `client_create_context`
Kind: P -/
theorem createRound_of_succeeds (h : calls.succeeds = true) :
    ∃ v', Turns F (createRound serverAddr padding calls port i v) (.ok v') (F + portHoldings i) ∧
      v'.connections = v.connections ++ [newConnection] := by
  simp only [RoundCalls.succeeds, Bool.and_eq_true] at h
  obtain ⟨⟨⟨⟨⟨hmalloc, hopen⟩, hbind⟩, hin⟩, hout⟩, hconnection⟩ := h
  have hround := fun v hsocket => connectRound_of_queues (F := F + socketAt i) i v hsocket hin hout
  simp only [hconnection, if_true] at hround
  refine ⟨_, createRound_of_bound serverAddr padding port i v hmalloc hopen hbind
    ((hround _ rfl).congr rfl ?_), rfl⟩
  rw [portHoldings_eq]
  simp only [add_assoc]

/-- **A round that fails**: from its label on, all that the round holds is released, and the blocks.
Source: `client.c`, `client_create_context`
Kind: P -/
theorem createRound_of_fails (h : calls.succeeds = false) :
    ∃ label v' own,
      Turns F (createRound serverAddr padding calls port i v) (.error (label, v')) (F + own) ∧
      Turns (blocks + own) (cleanup v' label) () 0 := by
  by_cases hopen : (calls.socket.malloc && calls.socket.socket) = true
  · obtain ⟨hmalloc, hsocket⟩ := Bool.and_eq_true_iff.mp hopen
    by_cases hbind : calls.bind = true
    · by_cases hqueues : (calls.incomingCreated && calls.outgoingCreated) = true
      · -- both queues are there, so the connection is what fails
        obtain ⟨hin, hout⟩ := Bool.and_eq_true_iff.mp hqueues
        have hconnection : calls.connection = false := by
          simpa [RoundCalls.succeeds, hmalloc, hsocket, hbind, hin, hout] using h
        have hround := fun v hv => connectRound_of_queues (F := F + socketAt i) i v hv hin hout
        simp only [hconnection, Bool.false_eq_true, if_false, add_zero] at hround
        refine ⟨.queueCreateFailed, _,
          socketAt i + queueIf true .incoming i + queueIf true .outgoing i,
          createRound_of_bound serverAddr padding port i v hmalloc hsocket hbind
            ((hround _ rfl).congr rfl (by simp only [add_assoc])), ?_⟩
        refine (clientContextQueueCreateFailed_turns i _ true true rfl rfl rfl).congr ?_ rfl
        abel
      · rw [Bool.not_eq_true] at hqueues
        refine ⟨.queueCreateFailed, _, socketAt i + queueIf calls.incomingCreated .incoming i +
            queueIf calls.outgoingCreated .outgoing i,
          createRound_of_bound serverAddr padding port i v hmalloc hsocket hbind
            ((connectRound_of_missing i _ hqueues).congr rfl (by simp only [add_assoc])), ?_⟩
        refine (clientContextQueueCreateFailed_turns i _ calls.incomingCreated
          calls.outgoingCreated rfl rfl rfl).congr ?_ rfl
        abel
    · have hcreate := (Held.udpSocketCreate_turns calls.socket).withinNew (portParts i) (F := F)
      rw [hopen] at hcreate
      refine ⟨.socketBindFailed, { v with socket := some i }, socketAt i, hcreate.bind ?_,
        clientContextSocketBindFailed_turns i _ rfl⟩
      simp only [hbind, Bool.not_true, Bool.false_eq_true, if_false, Bool.not_false, if_true]
      exact .pure
  · rw [Bool.not_eq_true] at hopen
    have hcreate := (Held.udpSocketCreate_turns calls.socket).withinNew (portParts i) (F := F)
    rw [hopen] at hcreate
    refine ⟨.socketCreateFailed, { v with socket := none }, 0, hcreate.bind .pure, ?_⟩
    exact freeBlocks_turns.congr (add_zero _) rfl

end round

/-! ## The loop -/

/-- The first `k` rounds are completed.
Source: `client.c`, `client_create_context` (the `for`)
Kind: D -/
structure Completed (rounds : ℕ → RoundCalls) (k : ℕ) (v : CreateVars) : Prop where
  succeeds : ∀ j < k, (rounds j).succeeds = true
  connections : v.connections = List.replicate k newConnection

/-- What the first `k` rounds leave if they are completed.
Source: `client.c`, `client_create_context` (the `for`)
Kind: D -/
def completedHoldings (k : ℕ) : Multiset Resource :=
  connectionsHold 0 (List.replicate k newConnection)

/-- One more round leaves the parts of one more connection.
Source: `client.c`, `client_create_context` (the `for`)
Kind: L -/
theorem completedHoldings_succ (k : ℕ) :
    completedHoldings (k + 1) = completedHoldings k + portHoldings k := by
  unfold completedHoldings
  rw [List.replicate_succ', connectionsHold_append, newConnection_holdings, List.length_replicate,
    Nat.zero_add]
  rfl

/-- The parts of a completed round are among them.
Source: `client.c`, `client_create_context` (the `for`)
Kind: L -/
theorem portHoldings_le {j k : ℕ} (hj : j < k) : portHoldings j ≤ completedHoldings k := by
  induction k with
  | zero => exact absurd hj (Nat.not_lt_zero j)
  | succ k ih =>
      rw [completedHoldings_succ]
      rcases Nat.lt_succ_iff_lt_or_eq.mp hj with hlt | rfl
      · exact (ih hlt).trans (Multiset.le_add_right _ _)
      · exact Multiset.le_add_left _ _

/-- Only no round at all leaves nothing.
Source: `client.c`, `client_create_context` (the `for`)
Kind: L -/
theorem completedHoldings_eq_zero_iff (k : ℕ) : completedHoldings k = 0 ↔ k = 0 := by
  constructor
  · intro h
    by_contra hk
    have hmem : Resource.port 0 .connection ∈ portHoldings 0 := by decide
    have hle := Multiset.mem_of_le (portHoldings_le (Nat.pos_of_ne_zero hk)) hmem
    rw [h] at hle
    exact Multiset.notMem_zero _ hle
  · rintro rfl
    rfl

section loop

variable (serverAddr : UInt32) (padding : ℕ → UInt64) {rounds : ℕ → RoundCalls} {i : ℕ}
  {v : CreateVars} {F : Multiset Resource}

/-- One more round.
Source: `client.c`, `client_create_context` (the `for`)
Kind: P -/
theorem Completed.createRound (h : Completed rounds i v) (hround : (rounds i).succeeds = true)
    (port : BitVec 32) :
    ∃ v', Turns (F + completedHoldings i) (createRound serverAddr padding (rounds i) port i v)
        (.ok v') (F + completedHoldings (i + 1)) ∧ Completed rounds (i + 1) v' := by
  obtain ⟨v', hv', hconnections⟩ :=
    createRound_of_succeeds serverAddr padding port i v (F := F + completedHoldings i) hround
  refine ⟨v', hv'.congr rfl (by rw [completedHoldings_succ, add_assoc]), ?_, ?_⟩
  · intro j hj
    rcases Nat.lt_succ_iff_lt_or_eq.mp hj with hj | rfl
    · exact h.succeeds j hj
    · exact hround
  · rw [hconnections, h.connections, List.replicate_succ']

/-- **The loop** completes every round, or it ends in a round that fails, and from the label on all
that this round holds is released; the rounds before it keep what they hold.
Source: `client.c`, `client_create_context` (the `for`)
Kind: P -/
theorem Completed.createLoop (h : Completed rounds i v) (ports : List (BitVec 32)) :
    (∃ v', Turns (F + completedHoldings i) (createLoop serverAddr padding rounds ports i v)
        (.ok v') (F + completedHoldings (i + ports.length)) ∧
        Completed rounds (i + ports.length) v') ∨
      ∃ k label v' own, (∀ j < k, (rounds j).succeeds = true) ∧ (rounds k).succeeds = false ∧
        Turns (F + completedHoldings i) (createLoop serverAddr padding rounds ports i v)
          (.error (label, v')) (F + completedHoldings k + own) ∧
        Turns (blocks + own) (cleanup v' label) () 0 := by
  induction ports generalizing i v with
  | nil => exact .inl ⟨v, .pure, h⟩
  | cons port ports ih =>
      cases hround : (rounds i).succeeds with
      | true =>
          obtain ⟨v₁, hv₁, hcompleted⟩ := h.createRound serverAddr padding (F := F) hround port
          rw [List.length_cons, Nat.add_comm ports.length, ← Nat.add_assoc]
          rcases ih hcompleted with ⟨v', hv', hdone⟩ | ⟨k, label, v', own, hbefore, hk, hv', hclean⟩
          · exact .inl ⟨v', hv₁.bind hv', hdone⟩
          · exact .inr ⟨k, label, v', own, hbefore, hk, hv₁.bind hv', hclean⟩
      | false =>
          obtain ⟨label, v', own, hv', hclean⟩ := createRound_of_fails serverAddr padding port i v
            (F := F + completedHoldings i) hround
          exact .inr ⟨i, label, v', own, h.succeeds, hround, hv'.bind .pure, hclean⟩

end loop

/-! ## A whole creation -/

/-- The calls before the loop succeed; the first allocation of the connections is not checked.
Source: `client.c`, `client_create_context`
Kind: D -/
def ReachesLoop (serverAddr : UInt32) (ports : List (BitVec 32)) (calls : ContextCalls) : Prop :=
  serverAddr ≠ 0 ∧ ports.length ≠ 0 ∧ calls.mallocContext = true ∧
    calls.mallocSockaddrs = true ∧ calls.mallocSecondArray = true

section create

variable (mode : ClientMode) {serverAddr : UInt32} {ports : List (BitVec 32)}
  {calls : ContextCalls} (rounds : ℕ → RoundCalls) (padding : ℕ → UInt64)

/-- The first array is acquired, or nothing is.
Source: `client.c`, `client_create_context`
Kind: L -/
theorem firstArray_turns {F : Multiset Resource} :
    Turns F (acquire calls.mallocFirstArray .firstArray) calls.mallocFirstArray
      (F + lostArray calls) := by
  refine (Turns.acquire _).congr rfl ?_
  unfold lostArray
  cases calls.mallocFirstArray with
  | false => exact (add_zero F).symm
  | true => exact (Multiset.singleton_add _ F).symm.trans (add_comm _ F)

/-- A creation that does not reach the loop leaves the lost array at most.
Source: `client.c`, `client_create_context`
Kind: P -/
theorem clientCreateContext_of_not_reachesLoop (h : ¬ReachesLoop serverAddr ports calls) :
    ∃ held, Turns 0 (clientCreateContext mode serverAddr ports calls rounds padding) none held ∧
      counted held = 0 := by
  unfold clientCreateContext
  by_cases hargs : serverAddr = 0 ∨ ports.length = 0
  · exact ⟨0, by rw [if_pos hargs]; exact .pure, rfl⟩
  rw [if_neg hargs]
  obtain ⟨haddr, hports⟩ := not_or.mp hargs
  cases hcontext : calls.mallocContext with
  | false => exact ⟨0, (Turns.acquire _).bind .pure, rfl⟩
  | true =>
      refine ⟨lostArray calls, ?_, counted_lostArray calls⟩
      refine (Turns.acquire Resource.context).bind ?_
      cases hsockaddrs : calls.mallocSockaddrs with
      | false =>
          refine (Turns.acquire Resource.sockaddrs).bind (firstArray_turns.bind ?_)
          exact (Turns.releaseThen .pure).congr (Multiset.singleton_add _ _) rfl
      | true =>
          have harray : calls.mallocSecondArray = false := by
            simpa [ReachesLoop, haddr, hports, hcontext, hsockaddrs] using h
          refine (Turns.acquire Resource.sockaddrs).bind (firstArray_turns.bind ?_)
          rw [harray]
          refine (Turns.acquire Resource.secondArray).bind ?_
          refine (Turns.releaseThen (Turns.releaseThen .pure)).congr ?_ rfl
          simp

/-- The loop, and what follows it.
Source: `client.c`, `client_create_context`
Kind: P -/
theorem createConnections_turns (serverAddr : UInt32) (ports : List (BitVec 32))
    (F : Multiset Resource) :
    (∃ context, Turns (F + blocks) (createConnections mode serverAddr ports rounds padding)
          (some context) (F + blocks + completedHoldings ports.length) ∧
        context.connections = List.replicate ports.length newConnection) ∨
      ∃ k, (∀ j < k, (rounds j).succeeds = true) ∧ (rounds k).succeeds = false ∧
        Turns (F + blocks) (createConnections mode serverAddr ports rounds padding) none
          (F + completedHoldings k) := by
  have hstart : Completed rounds 0 ⟨none, none, none, [], []⟩ :=
    ⟨fun j hj => absurd hj (Nat.not_lt_zero j), rfl⟩
  have hnone : F + blocks + completedHoldings 0 = F + blocks := add_zero _
  rcases hstart.createLoop serverAddr padding (F := F + blocks) ports with
    ⟨v, hv, hdone⟩ | ⟨k, label, v, own, hbefore, hfails, hv, hclean⟩
  · rw [Nat.zero_add] at hv hdone
    exact .inl ⟨_, (hv.congr hnone.symm rfl).bind .pure, hdone.connections⟩
  · refine .inr ⟨k, hbefore, hfails, (hv.congr hnone.symm rfl).bind ?_⟩
    -- the label releases the blocks and what the failed round holds
    refine ((hclean.frame (F + completedHoldings k)).congr ?_ (zero_add _)).bind .pure
    abel

/-- A creation that reaches the loop.
Source: `client.c`, `client_create_context`
Kind: P -/
theorem clientCreateContext_of_reachesLoop (h : ReachesLoop serverAddr ports calls)
    {result : Option CreatedContext} {held : Multiset Resource}
    (hloop : Turns (lostArray calls + blocks)
      (createConnections mode serverAddr ports rounds padding) result held) :
    Turns 0 (clientCreateContext mode serverAddr ports calls rounds padding) result held := by
  obtain ⟨haddr, hports, hcontext, hsockaddrs, harray⟩ := h
  unfold clientCreateContext
  rw [if_neg (not_or.mpr ⟨haddr, hports⟩), hcontext, hsockaddrs, harray]
  refine (Turns.acquire Resource.context).bind ?_
  refine (Turns.acquire Resource.sockaddrs).bind (firstArray_turns.bind ?_)
  refine (Turns.acquire Resource.secondArray).bind ?_
  refine hloop.congr ?_ rfl
  rw [if_pos rfl, if_pos rfl, if_pos rfl, blocks, add_comm (lostArray calls), ← Multiset.cons_add]
  exact congrArg (fun held => held + lostArray calls) (Multiset.cons_swap _ _ _)

end create

/-- **A creation that returns `NULL` has released what it created exactly if it did not complete a
round.** For every list of ports and every outcome of every call: a creation has an outcome, so that
it only ever releases what it has acquired and not yet released; and if it returns `NULL`, no part
of a socket, a queue or a connection is still held exactly if the loop was not reached or its first
round fails. Every part of the connection of a completed round is still held.
Source: `client.c`, `client_create_context`
Kind: P -/
theorem create_context_cleans_up_iff (mode : ClientMode) (serverAddr : UInt32)
    (ports : List (BitVec 32)) (calls : ContextCalls) (rounds : ℕ → RoundCalls)
    (padding : ℕ → UInt64) :
    ∃ result held,
      Turns 0 (clientCreateContext mode serverAddr ports calls rounds padding) result held ∧
      (result = none →
        (counted held = 0 ↔
          ¬(ReachesLoop serverAddr ports calls ∧ (rounds 0).succeeds = true)) ∧
        ∀ j, ReachesLoop serverAddr ports calls → (∀ j' ≤ j, (rounds j').succeeds = true) →
          portHoldings j ≤ counted held) := by
  by_cases hloop : ReachesLoop serverAddr ports calls
  · rcases createConnections_turns mode rounds padding serverAddr ports (lostArray calls) with
      ⟨context, hsome, -⟩ | ⟨k, hbefore, hfails, hnone⟩
    · refine ⟨_, _, clientCreateContext_of_reachesLoop mode rounds padding hloop hsome, ?_⟩
      exact fun h => absurd h (Option.some_ne_none context)
    · refine ⟨_, _, clientCreateContext_of_reachesLoop mode rounds padding hloop hnone, fun _ => ?_⟩
      rw [counted_add, counted_lostArray, completedHoldings, counted_connectionsHold, zero_add]
      refine ⟨?_, ?_⟩
      · rw [← completedHoldings, completedHoldings_eq_zero_iff]
        constructor
        · rintro rfl ⟨-, hzero⟩
          exact Bool.false_ne_true (hfails.symm.trans hzero)
        · intro hnot
          by_contra hk
          exact hnot ⟨hloop, hbefore 0 (Nat.pos_of_ne_zero hk)⟩
      · intro j _ hsucceed
        have hj : j < k := by
          by_contra hge
          rw [hsucceed k (not_lt.mp hge)] at hfails
          cases hfails
        exact portHoldings_le hj
  · obtain ⟨held, hnone, hcounted⟩ :=
      clientCreateContext_of_not_reachesLoop mode rounds padding hloop
    refine ⟨none, held, hnone, fun _ => ⟨iff_of_true hcounted fun hand => hloop hand.1, ?_⟩⟩
    exact fun j hreach => absurd hreach hloop

/-- Every call of a round succeeds.
Source: none: infrastructure
Kind: D -/
def roundOk : RoundCalls := ⟨⟨true, true⟩, true, .allOk, .allOk, true⟩

/-- No socket can be opened.
Source: none: infrastructure
Kind: D -/
def roundNoSocket : RoundCalls := { roundOk with socket := ⟨true, false⟩ }

/-- There is no memory for the connection.
Source: none: infrastructure
Kind: D -/
def roundNoConnection : RoundCalls := { roundOk with connection := false }

/-- Every allocation before the loop succeeds.
Source: none: infrastructure
Kind: D -/
def contextOk : ContextCalls := ⟨true, true, true, true⟩

/-- With one port, whose connection cannot be allocated, the socket and the two queues are created
and released: what is left is the lost array.
Source: `client.c`, `client_create_context`
Kind: C -/
theorem create_context_cleans_up_one_port :
    ∃ held, Turns 0 (clientCreateContext .normal 16777343 [9000] contextOk
      (fun _ => roundNoConnection) fun _ => 0) none held ∧ counted held = 0 := by
  obtain ⟨result, held, hturns, hnone⟩ := create_context_cleans_up_iff .normal 16777343 [9000]
    contextOk (fun _ => roundNoConnection) fun _ => 0
  have hresult : ((clientCreateContext .normal 16777343 [9000] contextOk
      (fun _ => roundNoConnection) fun _ => 0) 0).map (fun x => x.1.isNone) = some true := by
    decide +kernel
  rw [show (0 : Multiset Resource) = 0 + 0 from rfl, hturns 0, Option.map_some] at hresult
  obtain rfl : result = none := Option.isNone_iff_eq_none.mp (Option.some.inj hresult)
  exact ⟨held, hturns, (hnone rfl).1.mpr fun h => Bool.false_ne_true h.2⟩

/-- The socket of the second port cannot be opened: `NULL` is returned, and every part of the first
port's connection is still held.
Source: `client.c`, `client_create_context`
Kind: C -/
theorem second_port_leaks_first :
    ∃ held, clientCreateContext .normal 16777343 [9000, 9001] contextOk
        (fun i => if i = 0 then roundOk else roundNoSocket) (fun _ => 0) 0 = some (none, held) ∧
      counted held = portHoldings 0 ∧ .port 0 .connection ∈ held ∧ counted held ≠ 0 := by
  have hrun : (clientCreateContext .normal 16777343 [9000, 9001] contextOk
      (fun i => if i = 0 then roundOk else roundNoSocket) (fun _ => 0) 0).map
        (fun x => (x.1.isNone, counted x.2)) = some (true, portHoldings 0) := by
    decide +kernel
  obtain ⟨⟨result, held⟩, hcreate, hleft⟩ := Option.map_eq_some_iff.mp hrun
  obtain ⟨hresult, hcounted⟩ := Prod.mk.inj hleft
  obtain rfl : result = none := Option.isNone_iff_eq_none.mp hresult
  have hmem : Resource.port 0 .connection ∈ counted held := by
    rw [show counted held = portHoldings 0 from hcounted]
    decide
  refine ⟨held, hcreate, hcounted, Multiset.mem_of_mem_filter hmem, fun hzero => ?_⟩
  rw [hzero] at hmem
  exact Multiset.notMem_zero _ hmem

/-! ## Deleting what was created -/

/-- A connection whose threads are stopped.
Source: `client.c`, `client_stop`
Kind: D -/
def stopped (c : Held.Connection) : Held.Connection := { c with flags := .init }

section delete

variable {joins again : ℕ → StopCalls} {cs : List Held.Connection}

/-- Every `pthread_join` for these connections succeeds.
Source: none: infrastructure
Kind: D -/
def AllJoined (joins : ℕ → StopCalls) (cs : List Held.Connection) : Prop :=
  ∀ c ∈ cs, ∀ j, Held.Joined (joins j) c.flags

/-- **The loop of `client_stop`** gives the threads back.
Source: `client.c`, `client_stop`
Kind: P -/
theorem stopConnections_turns (hjoins : AllJoined joins cs) (i : ℕ) :
    Turns (connectionsHold i cs) (stopConnections joins i cs) (cs.map stopped)
      (connectionsHold i (cs.map stopped)) := by
  induction cs generalizing i with
  | nil => exact .pure
  | cons c cs ih =>
      obtain ⟨hc, hcs⟩ := List.forall_mem_cons.mp hjoins
      have hparts : c.holdings = c.messages + Held.connectionParts + Held.threads c.flags := by
        rw [Held.Connection.holdings]
        abel
      have hstopped : (stopped c).holdings = c.messages + Held.connectionParts := by
        simp [Held.Connection.holdings, stopped, Held.threads, Held.threadIf, ThreadFlags.init,
          Held.Connection.messages]
      have hstop := (Held.stopThreads_turns (hc i)).withinLast (portParts i)
        (F := (c.messages + Held.connectionParts).map (Resource.port i) +
          connectionsHold (i + 1) cs)
      refine (hstop.congr ?_ rfl).bind ?_
      · rw [connectionsHold, hparts, Multiset.map_add]
        exact add_right_comm _ _ _
      · have hrest := (ih hcs (i + 1)).frame
          ((c.messages + Held.connectionParts).map (Resource.port i))
        refine (hrest.congr (add_comm _ _) ?_).bind .pure
        rw [List.map_cons, connectionsHold, hstopped, add_comm]

/-- **The loop of `client_delete_context`** releases all that the connections hold.
Source: `client.c`, `client_delete_context`
Kind: P -/
theorem deleteConnections_turns (hjoins : AllJoined joins cs)
    (hvalid : ∀ c ∈ cs, c.incoming.Valid ∧ c.outgoing.Valid) (i : ℕ) :
    Turns (connectionsHold i cs) (deleteConnections joins i cs) () 0 := by
  induction cs generalizing i with
  | nil => exact .pure
  | cons c cs ih =>
      obtain ⟨hc, hcs⟩ := List.forall_mem_cons.mp hjoins
      obtain ⟨⟨hincoming, houtgoing⟩, hrest⟩ := List.forall_mem_cons.mp hvalid
      have hdelete := (Held.netConnectionDelete_turns (hc i) hincoming houtgoing).withinLast
        (portParts i) (F := connectionsHold (i + 1) cs)
      exact (hdelete.congr (add_comm _ _) rfl).bind (ih hcs hrest (i + 1))

/-- **A deletion**, of a running context or another one, releases all that its connections hold and
the blocks.
Source: `client.c`, `client_delete_context`, `client_stop`
Kind: P
Hyps: every `pthread_join` that is made succeeds -/
theorem clientDeleteContext_turns {context : CreatedContext}
    (hjoins : AllJoined joins context.connections) (hagain : AllJoined again context.connections)
    (hvalid : ∀ c ∈ context.connections, c.incoming.Valid ∧ c.outgoing.Valid) :
    Turns (connectionsHold 0 context.connections + blocks)
      (clientDeleteContext joins again context) () 0 := by
  have hfree : ∀ {cs}, Turns (connectionsHold 0 cs) (deleteConnections again 0 cs) () 0 →
      Turns (connectionsHold 0 cs + blocks)
        (do deleteConnections again 0 cs; freeBlocks) () 0 := by
    intro cs hdelete
    exact ((hdelete.frame blocks).congr rfl (zero_add _)).bind freeBlocks_turns
  unfold clientDeleteContext
  cases context.isRunning with
  | false => exact Turns.pure.bind (hfree (deleteConnections_turns hagain hvalid 0))
  | true =>
      refine ((stopConnections_turns hjoins 0).frame blocks).bind (hfree ?_)
      refine deleteConnections_turns ?_ ?_ 0
      · intro c hc j
        obtain ⟨c', -, rfl⟩ := List.mem_map.mp hc
        exact .init _
      · intro c hc
        obtain ⟨c', hc', rfl⟩ := List.mem_map.mp hc
        exact hvalid c' hc'

end delete

/-- **A context that is created and then deleted loses the first array of connections, and nothing
else.** Whatever the joins of the deletion would answer, it releases every block, and every part of
every socket, queue and connection that the creation has left, each exactly once, but for the array
that the second `malloc` for the connections makes unreachable; so everything is released exactly if
the first `malloc` has failed.
Source: `client.c`, `client_create_context`, `client_delete_context`
Kind: P -/
theorem create_then_delete_cleans_up_iff {mode : ClientMode} {serverAddr : UInt32}
    {ports : List (BitVec 32)} {calls : ContextCalls} {rounds : ℕ → RoundCalls}
    {padding : ℕ → UInt64} {context : CreatedContext} {held : Multiset Resource}
    (h : Turns 0 (clientCreateContext mode serverAddr ports calls rounds padding) (some context)
      held) (joins again : ℕ → StopCalls) :
    Turns held (clientDeleteContext joins again context) () (lostArray calls) ∧
      (lostArray calls = 0 ↔ calls.mallocFirstArray = false) := by
  have hlost : lostArray calls = 0 ↔ calls.mallocFirstArray = false := by
    unfold lostArray
    cases calls.mallocFirstArray <;> simp
  refine ⟨?_, hlost⟩
  by_cases hloop : ReachesLoop serverAddr ports calls
  · rcases createConnections_turns mode rounds padding serverAddr ports (lostArray calls) with
      ⟨context', hsome, hconnections⟩ | ⟨k, -, -, hnone⟩
    · obtain ⟨hcontext, rfl⟩ :=
        h.unique (clientCreateContext_of_reachesLoop mode rounds padding hloop hsome)
      obtain rfl := Option.some.inj hcontext
      -- no connection has a thread, and every queue is empty
      have hnew : ∀ c ∈ context.connections, c = newConnection := by
        rw [hconnections]
        exact fun c hc => List.eq_of_mem_replicate hc
      have hjoined : ∀ joins, AllJoined joins context.connections := by
        intro joins c hc j
        rw [hnew c hc]
        exact .init _
      have hqueue := (createdQueue_reachable (α := ℕ) (show 0 < 5 by decide)
        (by decide)).represents.valid
      have hdelete := clientDeleteContext_turns (hjoined joins) (hjoined again)
        fun c hc => by rw [hnew c hc]; exact ⟨hqueue, hqueue⟩
      refine (hdelete.frame (lostArray calls)).congr ?_ (zero_add _)
      rw [hconnections, ← completedHoldings]
      abel
    · have hfailed := clientCreateContext_of_reachesLoop mode rounds padding hloop hnone
      exact absurd (h.unique hfailed).1 (Option.some_ne_none context)
  · obtain ⟨held', hnone, -⟩ := clientCreateContext_of_not_reachesLoop mode rounds padding hloop
    exact absurd (h.unique hnone).1 (Option.some_ne_none context)

/-- When every call succeeds, the first array is what is left.
Source: `client.c`, `client_create_context`, `client_delete_context`
Kind: C -/
theorem create_then_delete_loses_first_array :
    ∃ context held,
      Turns 0 (clientCreateContext .normal 16777343 [9000, 9001] contextOk (fun _ => roundOk)
        fun _ => 0) (some context) held ∧
      Turns held (clientDeleteContext (fun _ => ⟨true, true⟩) (fun _ => ⟨true, true⟩) context) ()
        {.firstArray} := by
  have hloop : ReachesLoop 16777343 [9000, 9001] contextOk := by
    refine ⟨by decide, by decide, rfl, rfl, rfl⟩
  rcases createConnections_turns .normal (fun _ => roundOk) (fun _ => 0) 16777343 [9000, 9001]
    (lostArray contextOk) with ⟨context, hsome, -⟩ | ⟨k, -, hfails, -⟩
  · have hcreate := clientCreateContext_of_reachesLoop .normal (fun _ => roundOk) (fun _ => 0) hloop
      hsome
    exact ⟨context, _, hcreate, (create_then_delete_cleans_up_iff hcreate _ _).1⟩
  · exact absurd hfails (by decide)

end CpuMonitor.Client
