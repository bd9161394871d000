import CpuMonitor.Client.CreateContext
import CpuMonitor.Client.Lifecycle
import CpuMonitor.Client.RequestReply
import CpuMonitor.Network.QueueCalls

/-!
# Sending a pid

`client/client.c`, `client_send_pid_message`: the loop makes one message per round and hands it over
to the connection of the round. The guard of the loop looks at the mode and at the index: in the
normal mode it lets the first round through and ends the loop at the second.

* **The code's model** `sendPidRound`, `sendPidLoop`, `clientSendPidMessage`, on a context with all
  its queues. Every enqueue is recorded with the messages that it deletes.
* **What a round does** `sendPidRound_success`, and what the loop does, `sendPidLoop_success`, by
  induction on the indices that are left.
* `pid_message_addresses` — after a success exactly the recipients of the mode had an enqueue, one
  each, and nothing else changed.
* `clientSendPidMessage_of_allOk` — it does succeed if its calls do.
-/

namespace CpuMonitor.Client

open CpuMonitor.Lib CpuMonitor.Network

/-! ## The data model -/

/-- The two queues of a connection.
Source: `net_connection.h`, `net_connection_t`
Kind: D -/
structure ConnectionQueues where
  incoming : MessageQueue Message
  outgoing : MessageQueue Message

/-- The part of a context with `n` ports that the function uses.
Source: `client.h`, `client_context_t`
Kind: D -/
structure SendingContext (n : ℕ) where
  mode : ClientMode
  serverSockaddrs : Fin n → SockaddrIn
  connections : Fin n → ConnectionQueues

/-- Which calls of a round succeed, and the memory of its message.
Source: `client.c`, `client_send_pid_message`
Kind: D -/
structure SendPidCalls where
  create : MessageCreateCalls
  fresh : FreshMemory
  enqueue : EnqueueCalls

/-- An enqueue to the outgoing queue of a connection, and the messages it deletes.
Source: `client.c`, `client_send_pid_message`
Kind: D -/
structure PidEnqueue (n : ℕ) where
  connection : Fin n
  message : Message
  deleted : List Message

section model

variable {n : ℕ}

/-- The context with another outgoing queue at `i`.
Source: `client.c`, `client_send_pid_message`
Kind: D -/
def SendingContext.setOutgoing (context : SendingContext n) (i : Fin n)
    (q : MessageQueue Message) : SendingContext n :=
  { context with
    connections := Function.update context.connections i
      { context.connections i with outgoing := q } }

/-! ## The code's model -/

/-- One round of the loop: the status, the context and the enqueue, if it comes to it.
Source: `client.c`, `client_send_pid_message` (the body of the `for`)
Kind: D
Fidelity: exact (`none` is an undefined enqueue; the messages that a failed
`net_connection_send` deletes are in the record too) -/
def sendPidRound (calls : SendPidCalls) (pid : BitVec 32) (i : Fin n)
    (context : SendingContext n) :
    Option (ClientStatus × SendingContext n × List (PidEnqueue n)) :=
  match clientPidMessage calls.create calls.fresh (context.serverSockaddrs i) pid with
  | none => some (.errorMemoryAlloc, context, [])
  | some message => do
      let (status, q, deleted) ←
        netConnectionSend calls.enqueue (context.connections i).outgoing message
      let context := context.setOutgoing i q
      let sent := [⟨i, message, deleted⟩]
      if status ≠ .success then some (.errorSendMessage, context, sent)
      else some (.success, context, sent)

/-- The loop, over the indices that are left: the guard is evaluated before each round.
Source: `client.c`, `client_send_pid_message` (the `for`)
Kind: D -/
def sendPidLoop (calls : Fin n → SendPidCalls) (pid : BitVec 32) :
    List (Fin n) → SendingContext n →
      Option (ClientStatus × SendingContext n × List (PidEnqueue n))
  | [], context => some (.success, context, [])
  | i :: is, context =>
      if i.val = 0 ∨ context.mode = .fuzz then do
        let (status, context, sent) ← sendPidRound (calls i) pid i context
        if status ≠ .success then some (status, context, sent)
        else
          let (status, context, later) ← sendPidLoop calls pid is context
          some (status, context, sent ++ later)
      else some (.success, context, [])

/-- Source: `client.c`, `client_send_pid_message`. Kind: D
Fidelity: exact (non-null context; no other thread uses the queues meanwhile) -/
def clientSendPidMessage (calls : Fin n → SendPidCalls) (pid : BitVec 32)
    (context : SendingContext n) :
    Option (ClientStatus × SendingContext n × List (PidEnqueue n)) :=
  sendPidLoop calls pid (List.finRange n) context

end model

/-! ## What it is for -/

/-- The connections that a pid is sent to: all of them, or the first one.
Source: `client.c`, `client_send_pid_message`
Kind: D -/
def ClientMode.recipients (n : ℕ) : ClientMode → List (Fin n)
  | .fuzz => List.finRange n
  | .normal => (List.finRange n).filter fun i => i.val = 0

/-- The request for `pid`, as it is addressed to a server.
Source: `client.c`, `client_send_pid_message`
Kind: D -/
structure IsPidRequest (server : SockaddrIn) (pid : BitVec 32) (m : Message) : Prop where
  type_eq : m.header.type = MessageType.pid.code
  length_eq : m.header.length = 4
  data_eq : m.data = leBytes sizeofPid pid.toNat
  ownerAddr_eq : m.header.ownerAddr = server

/-- The message that the loop makes is a request for the pid.
Source: `client.c`, `client_send_pid_message`
Kind: L -/
theorem isPidRequest_pidMessage (server : SockaddrIn) (pid : BitVec 32) :
    IsPidRequest server pid (pidMessage server pid) :=
  ⟨rfl, rfl, rfl, rfl⟩

/-- The outgoing queues are those of a client, with any contents.
Source: `client.c`, `client_create_context`
Kind: D -/
def SendingContext.Ready {n : ℕ} (context : SendingContext n) : Prop :=
  ∀ i, (context.connections i).outgoing.Valid ∧
    ((context.connections i).outgoing.capacity : ℤ) = clientQueueCapacity

/-- What an enqueue of the request for `pid` did, from one context to another: the request is the
newest message of its queue, after those older ones that were not deleted, and only a full queue had
some deleted.
Source: `client.c`, `client_send_pid_message`
Kind: D -/
structure Enqueued {n : ℕ} (pid : BitVec 32) (calls : Fin n → SendPidCalls)
    (before after : SendingContext n) (e : PidEnqueue n) : Prop where
  enqueue : messageQueueEnqueue (calls e.connection).enqueue
      (before.connections e.connection).outgoing e.message =
    some (.success, (after.connections e.connection).outgoing, e.deleted)
  newest : ∃ older, (after.connections e.connection).outgoing.contents = older ++ [e.message] ∧
    e.deleted ++ older = (before.connections e.connection).outgoing.contents
  request : IsPidRequest (before.serverSockaddrs e.connection) pid e.message
  full : e.deleted ≠ [] → (before.connections e.connection).outgoing.contents.length =
    (before.connections e.connection).outgoing.capacity - 1

/-! ## One round -/

section round

variable {n : ℕ} {calls : SendPidCalls} {pid : BitVec 32} {i : Fin n}
  {context context' : SendingContext n} {sent : List (PidEnqueue n)}

/-- A message that could be created is the request.
Source: `client.c`, `client_send_pid_message`
Kind: L -/
theorem eq_pidMessage {create : MessageCreateCalls} {fresh : FreshMemory} {server : SockaddrIn}
    {m : Message} (h : clientPidMessage create fresh server pid = some m) :
    m = pidMessage server pid := by
  obtain ⟨message, data⟩ := create
  cases message with
  | false => cases h
  | true =>
      cases data with
      | false => cases h
      | true => exact Option.some.inj (h.symm.trans (clientPidMessage_eq fresh server pid))

/-- The connection that is written gets the new outgoing queue.
Source: `client.c`, `client_send_pid_message`
Kind: L -/
@[simp] theorem SendingContext.setOutgoing_self (context : SendingContext n) (i : Fin n)
    (q : MessageQueue Message) :
    (context.setOutgoing i q).connections i = ⟨(context.connections i).incoming, q⟩ := by
  simp [SendingContext.setOutgoing]

/-- Every other connection stays as it is.
Source: `client.c`, `client_send_pid_message`
Kind: L -/
theorem SendingContext.setOutgoing_of_ne (context : SendingContext n) {i j : Fin n} (h : j ≠ i)
    (q : MessageQueue Message) :
    (context.setOutgoing i q).connections j = context.connections j :=
  Function.update_of_ne h _ _

/-- A round that succeeds.
Source: `client.c`, `client_send_pid_message`
Kind: P -/
theorem sendPidRound_success
    (h : sendPidRound calls pid i context = some (.success, context', sent)) :
    ∃ q deleted, messageQueueEnqueue calls.enqueue (context.connections i).outgoing
        (pidMessage (context.serverSockaddrs i) pid) = some (.success, q, deleted) ∧
      context' = context.setOutgoing i q ∧
      sent = [⟨i, pidMessage (context.serverSockaddrs i) pid, deleted⟩] := by
  unfold sendPidRound at h
  cases hmessage : clientPidMessage calls.create calls.fresh (context.serverSockaddrs i) pid with
  | none =>
      rw [hmessage] at h
      cases h
  | some message =>
      rw [hmessage] at h
      obtain ⟨⟨status, q, deleted⟩, hsend, h⟩ := Option.bind_eq_some_iff.mp h
      obtain rfl := eq_pidMessage hmessage
      dsimp only at h
      split_ifs at h with hstatus
      · cases h
      · cases h
        obtain rfl := not_not.mp hstatus
        exact ⟨q, deleted, netConnectionAddToQueue_eq_success.mp hsend, rfl, rfl⟩

/-- A round whose calls succeed does succeed.
Source: `client.c`, `client_send_pid_message`
Kind: L -/
theorem sendPidRound_of_enqueue {q : MessageQueue Message} {deleted : List Message}
    (hcreate : calls.create = .allOk)
    (h : messageQueueEnqueue calls.enqueue (context.connections i).outgoing
      (pidMessage (context.serverSockaddrs i) pid) = some (.success, q, deleted)) :
    sendPidRound calls pid i context = some (.success, context.setOutgoing i q,
      [⟨i, pidMessage (context.serverSockaddrs i) pid, deleted⟩]) := by
  have hsend : netConnectionSend calls.enqueue (context.connections i).outgoing
      (pidMessage (context.serverSockaddrs i) pid) = some (.success, q, deleted) :=
    netConnectionAddToQueue_eq_success.mpr h
  unfold sendPidRound
  rw [hcreate, clientPidMessage_eq]
  simp [hsend]

end round

/-! ## The outgoing queues -/

section queues

variable {n : ℕ} {context : SendingContext n}

/-- An enqueue that succeeds on a client's queue.
Source: `message_queue.c`, `message_queue_enqueue`
Kind: P -/
theorem enqueue_client {q q' : MessageQueue Message} (hq : q.Valid)
    (hcap : (q.capacity : ℤ) = clientQueueCapacity) {calls : EnqueueCalls} {m : Message}
    {deleted : List Message} (h : messageQueueEnqueue calls q m = some (.success, q', deleted)) :
    q'.Valid ∧ (q'.capacity : ℤ) = clientQueueCapacity ∧
      (∃ older, q'.contents = older ++ [m] ∧ deleted ++ older = q.contents) ∧
      (deleted ≠ [] → q.contents.length = q.capacity - 1) := by
  obtain ⟨hfifo, hvalid⟩ := hq.enqueue h
  obtain ⟨hlock, -⟩ := Fifo.calls_of_enqueue_success hfifo
  have hone : q.fifo.capacity ≠ 1 := by
    show q.capacity ≠ 1
    intro heq
    rw [heq] at hcap
    exact absurd hcap (by decide)
  have hkept : q'.capacity = q.capacity := Fifo.capacity_of_enqueue hfifo
  refine ⟨hvalid, hkept ▸ hcap, ?_, ?_⟩
  · obtain ⟨older, hitems⟩ := Fifo.exists_append_of_enqueue hlock hone hfifo
    have happend := Fifo.append_of_enqueue hlock hone hfifo
    rw [hitems, ← List.append_assoc] at happend
    exact ⟨older, hitems, List.append_cancel_right happend⟩
  · exact Fifo.length_eq_of_dropped hfifo

/-- A context stays ready when a valid queue of the client's capacity is put in.
Source: `client.c`, `client_send_pid_message`
Kind: L -/
theorem SendingContext.Ready.setOutgoing (h : context.Ready) (i : Fin n)
    {q : MessageQueue Message} (hq : q.Valid) (hcap : (q.capacity : ℤ) = clientQueueCapacity) :
    (context.setOutgoing i q).Ready := by
  intro j
  by_cases hj : j = i
  · subst hj
    rw [SendingContext.setOutgoing_self]
    exact ⟨hq, hcap⟩
  · rw [SendingContext.setOutgoing_of_ne _ hj]
    exact h j

end queues

/-! ## The loop -/

/-- The guard lets the recipients through.
Source: `client.c`, `client_send_pid_message`
Kind: L -/
theorem recipients_eq_filter (n : ℕ) (mode : ClientMode) :
    mode.recipients n = (List.finRange n).filter fun i => i.val = 0 ∨ mode = .fuzz := by
  cases mode with
  | fuzz => simp [ClientMode.recipients]
  | normal => simp [ClientMode.recipients]

/-- What the loop does to a context if it is run for the indices `is`.
Source: `client.c`, `client_send_pid_message`
Kind: D -/
structure SentTo {n : ℕ} (pid : BitVec 32) (calls : Fin n → SendPidCalls) (is : List (Fin n))
    (before after : SendingContext n) (sent : List (PidEnqueue n)) : Prop where
  connections : sent.map PidEnqueue.connection = is
  enqueued : ∀ e ∈ sent, Enqueued pid calls before after e
  outgoing : ∀ i ∉ is, (after.connections i).outgoing = (before.connections i).outgoing
  incoming : ∀ i, (after.connections i).incoming = (before.connections i).incoming
  serverSockaddrs : after.serverSockaddrs = before.serverSockaddrs
  mode : after.mode = before.mode

section loop

variable {n : ℕ} {calls : Fin n → SendPidCalls} {pid : BitVec 32}
  {context context' : SendingContext n} {sent : List (PidEnqueue n)}

/-- No round sends nothing.
Source: `client.c`, `client_send_pid_message`
Kind: L -/
theorem SentTo.refl (pid : BitVec 32) (calls : Fin n → SendPidCalls) (context : SendingContext n) :
    SentTo pid calls [] context context [] :=
  ⟨rfl, fun _ h => absurd h List.not_mem_nil, fun _ _ => rfl, fun _ => rfl, rfl, rfl⟩

/-- A round before a run of the loop that does not come back to its connection.
Source: `client.c`, `client_send_pid_message`
Kind: P -/
theorem SentTo.cons (hready : context.Ready) {i : Fin n} {is : List (Fin n)} (hi : i ∉ is)
    {q : MessageQueue Message} {deleted : List Message}
    (hq : messageQueueEnqueue (calls i).enqueue (context.connections i).outgoing
      (pidMessage (context.serverSockaddrs i) pid) = some (.success, q, deleted))
    (h : SentTo pid calls is (context.setOutgoing i q) context' sent) :
    SentTo pid calls (i :: is) context context'
      (⟨i, pidMessage (context.serverSockaddrs i) pid, deleted⟩ :: sent) := by
  obtain ⟨hvalid, hcap⟩ := hready i
  obtain ⟨-, -, hnewest, hfull⟩ := enqueue_client hvalid hcap hq
  have hlast : (context'.connections i).outgoing = q := by
    rw [h.outgoing i hi, SendingContext.setOutgoing_self]
  refine ⟨?_, ?_, ?_, ?_, h.serverSockaddrs, h.mode⟩
  · rw [List.map_cons, h.connections]
  · intro e he
    rcases List.mem_cons.mp he with rfl | he
    · exact ⟨hlast ▸ hq, hlast ▸ hnewest, isPidRequest_pidMessage _ _, hfull⟩
    · -- a later round is at another connection, which this round did not change
      have hmem : e.connection ∈ is := h.connections ▸ List.mem_map_of_mem he
      have hne : e.connection ≠ i := fun heq => hi (heq ▸ hmem)
      have hsame := context.setOutgoing_of_ne hne q
      obtain ⟨henqueue, hnewest', hrequest, hfull'⟩ := h.enqueued e he
      rw [hsame] at henqueue hnewest' hfull'
      exact ⟨henqueue, hnewest', hrequest, hfull'⟩
  · intro j hj
    obtain ⟨hne, hmem⟩ := not_or.mp (mt List.mem_cons.mpr hj)
    rw [h.outgoing j hmem, SendingContext.setOutgoing_of_ne _ hne]
  · intro j
    rw [h.incoming j]
    by_cases hj : j = i
    · rw [hj, SendingContext.setOutgoing_self]
    · rw [SendingContext.setOutgoing_of_ne _ hj]

/-- Where the guard ends the loop, it would let no later index through either.
Source: none: infrastructure
Kind: L -/
theorem filter_guard_eq_nil {i : Fin n} {is : List (Fin n)} {mode : ClientMode}
    (hsorted : (i :: is).Pairwise (· < ·)) (hguard : ¬(i.val = 0 ∨ mode = .fuzz)) :
    ((i :: is).filter fun j => j.val = 0 ∨ mode = .fuzz) = [] := by
  obtain ⟨hzero, hmode⟩ := not_or.mp hguard
  rw [List.filter_eq_nil_iff]
  intro j hj
  rw [decide_eq_true_eq]
  rintro (hj0 | hfuzz)
  · rcases List.mem_cons.mp hj with rfl | hj
    · exact hzero hj0
    · have hlt : i < j := List.rel_of_pairwise_cons hsorted hj
      omega
  · exact hmode hfuzz

/-- A run of the loop that succeeds: the indices that are left grow, and the guard ends it at the
first one that it refuses.
Source: `client.c`, `client_send_pid_message`
Kind: P -/
theorem sendPidLoop_success {is : List (Fin n)} (hsorted : is.Pairwise (· < ·))
    (hready : context.Ready)
    (h : sendPidLoop calls pid is context = some (.success, context', sent)) :
    SentTo pid calls (is.filter fun i => i.val = 0 ∨ context.mode = .fuzz) context context'
      sent := by
  induction is generalizing context sent with
  | nil =>
      cases h
      exact .refl pid calls _
  | cons i is ih =>
      unfold sendPidLoop at h
      by_cases hguard : i.val = 0 ∨ context.mode = .fuzz
      · rw [if_pos hguard] at h
        obtain ⟨⟨status, context₁, sent₁⟩, hround, h⟩ := Option.bind_eq_some_iff.mp h
        dsimp only at h
        split_ifs at h with hstatus
        · cases h
          exact absurd rfl hstatus
        · obtain rfl := not_not.mp hstatus
          obtain ⟨⟨status, context₂, sent₂⟩, hloop, h⟩ := Option.bind_eq_some_iff.mp h
          cases h
          obtain ⟨q, deleted, hq, rfl, rfl⟩ := sendPidRound_success hround
          obtain ⟨hvalid, hcap, -, -⟩ := enqueue_client (hready i).1 (hready i).2 hq
          have hrest := ih hsorted.of_cons (hready.setOutgoing i hvalid hcap) hloop
          rw [List.filter_cons_of_pos (by simpa using hguard)]
          refine hrest.cons hready (fun hmem => ?_) hq
          exact lt_irrefl i (List.rel_of_pairwise_cons hsorted (List.mem_of_mem_filter hmem))
      · rw [if_neg hguard] at h
        cases h
        rw [filter_guard_eq_nil hsorted hguard]
        exact .refl pid calls _

end loop

/-- **A success sends the pid to the connections of the mode**: each of them had one enqueue, of the
request addressed to its own server, which is the newest message of its outgoing queue; the other
queues and the addresses are as they were.
Source: `client.c`, `client_send_pid_message`
Kind: P -/
theorem pid_message_addresses {n : ℕ} {calls : Fin n → SendPidCalls} {pid : BitVec 32}
    {context context' : SendingContext n} {sent : List (PidEnqueue n)} (hready : context.Ready)
    (h : clientSendPidMessage calls pid context = some (.success, context', sent)) :
    SentTo pid calls (context.mode.recipients n) context context' sent := by
  rw [recipients_eq_filter]
  exact sendPidLoop_success (List.pairwise_lt_finRange n) hready h

/-! ## Success -/

section success

variable {n : ℕ} {calls : Fin n → SendPidCalls} {context : SendingContext n}

/-- An enqueue whose calls succeed does succeed on a client's queue.
Source: `message_queue.c`, `message_queue_enqueue`
Kind: L -/
theorem exists_enqueue_client {q : MessageQueue Message} (hq : q.Valid)
    (hcap : (q.capacity : ℤ) = clientQueueCapacity) (m : Message) :
    ∃ q' deleted, messageQueueEnqueue .allOk q m = some (.success, q', deleted) := by
  have hfive : q.capacity = 5 := Int.ofNat_inj.mp hcap
  have hfit : q.capacity - 1 + q.capacity / 2 ≤ intMax := by
    rw [hfive]
    decide
  obtain ⟨⟨status, q', deleted⟩, henqueue⟩ := hq.exists_enqueue hfit .allOk m
  obtain ⟨hfifo, -⟩ := hq.enqueue henqueue
  have hstatus : status = .success := Fifo.status_of_enqueue rfl hfifo
  exact ⟨q', deleted, hstatus ▸ henqueue⟩

/-- The loop gets to its end if the calls of its rounds succeed.
Source: `client.c`, `client_send_pid_message`
Kind: P -/
theorem sendPidLoop_of_allOk (hready : context.Ready)
    (hcalls : ∀ i, (calls i).create = .allOk ∧ (calls i).enqueue = .allOk) (pid : BitVec 32)
    (is : List (Fin n)) :
    ∃ context' sent, sendPidLoop calls pid is context = some (.success, context', sent) := by
  induction is generalizing context with
  | nil => exact ⟨context, [], rfl⟩
  | cons i is ih =>
      unfold sendPidLoop
      by_cases hguard : i.val = 0 ∨ context.mode = .fuzz
      · obtain ⟨hvalid, hcap⟩ := hready i
        obtain ⟨q, deleted, hq⟩ := exists_enqueue_client hvalid hcap
          (pidMessage (context.serverSockaddrs i) pid)
        rw [← (hcalls i).2] at hq
        obtain ⟨hvalid', hcap', -, -⟩ := enqueue_client hvalid hcap hq
        obtain ⟨context', sent, hloop⟩ := ih (hready.setOutgoing i hvalid' hcap')
        rw [if_pos hguard, sendPidRound_of_enqueue (hcalls i).1 hq]
        refine ⟨context', ⟨i, pidMessage (context.serverSockaddrs i) pid, deleted⟩ :: sent, ?_⟩
        simp [hloop]
      · rw [if_neg hguard]
        exact ⟨context, [], rfl⟩

/-- The function succeeds if its calls do, whatever the queues hold.
Source: `client.c`, `client_send_pid_message`
Kind: P -/
theorem clientSendPidMessage_of_allOk (hready : context.Ready)
    (hcalls : ∀ i, (calls i).create = .allOk ∧ (calls i).enqueue = .allOk) (pid : BitVec 32) :
    ∃ context' sent, clientSendPidMessage calls pid context = some (.success, context', sent) :=
  sendPidLoop_of_allOk hready hcalls pid (List.finRange n)

end success

/-- A context whose queues are as `client_create_context` makes them.
Source: `client.c`, `client_create_context`
Kind: D -/
def SendingContext.created {n : ℕ} (mode : ClientMode) (serverSockaddrs : Fin n → SockaddrIn) :
    SendingContext n :=
  ⟨mode, serverSockaddrs, fun _ => ⟨createdQueue Message 5, createdQueue Message 5⟩⟩

/-- A context that has just been created is ready.
Source: `client.c`, `client_create_context`
Kind: L -/
theorem SendingContext.ready_created {n : ℕ} (mode : ClientMode)
    (serverSockaddrs : Fin n → SockaddrIn) :
    (SendingContext.created mode serverSockaddrs).Ready := by
  intro i
  have hreachable : (createdQueue Message 5).Reachable 5 :=
    createdQueue_reachable (by decide) (by decide)
  exact ⟨hreachable.valid.2, rfl⟩

/-- Every call of a round succeeds, and its message is made in zeroed memory.
Source: none: infrastructure
Kind: D -/
def sendPidOk : SendPidCalls := ⟨.allOk, ⟨⟨0, 0, 0, 0⟩, fun _ => 0⟩, .allOk⟩

/-- A new context with the ports 9000 and 9001, in the mode that sends to both.
Source: none: infrastructure
Kind: D -/
def twoPorts : SendingContext 2 :=
  .created .fuzz fun i => serverSockaddr 16777343 (9000 + BitVec.ofNat 32 i.val) 0

/-- Both ports of a new context get the request.
Source: `client.c`, `client_send_pid_message`
Kind: C -/
theorem pid_message_addresses_two :
    ∃ context' sent,
      clientSendPidMessage (fun _ => sendPidOk) 1234 twoPorts = some (.success, context', sent) ∧
        SentTo 1234 (fun _ => sendPidOk) [0, 1] twoPorts context' sent := by
  have hready : twoPorts.Ready := SendingContext.ready_created _ _
  have hcalls : ∀ i : Fin 2, ((fun _ => sendPidOk) i).create = .allOk ∧
      ((fun _ => sendPidOk) i).enqueue = .allOk := fun _ => ⟨rfl, rfl⟩
  obtain ⟨context', sent, h⟩ := clientSendPidMessage_of_allOk hready hcalls 1234
  exact ⟨context', sent, h, pid_message_addresses hready h⟩

end CpuMonitor.Client
