import CpuMonitor.Client.SendPid
import CpuMonitor.Server.Link

/-!
# One connection of a client

`client/client.c`: for each server port a client has a connection with its two threads. Its main
thread puts requests into the outgoing queue (`client_send_pid_message`), the thread of
`print_received_messages` takes messages from the incoming queue and prints them.

* **The state** `ClientNode Q`: the connection (`Conn`, whose worker loop never starts here), and
  what was printed.
* **The steps** `clientNodeStep`: those of the two threads of the connection, a round of
  `client_send_pid_message`, and a round of the printing thread. `ClientMoved` says once what a step
  can do.
* **The invariant** `ClientNode.Inv`: what the connection keeps (`Conn.Link`), everything on the way
  out is a request of this client, and everything printed was received.
-/

namespace CpuMonitor.Client

open CpuMonitor.Lib CpuMonitor.Network CpuMonitor.Server

/-! ## Printing a message -/

/-- What `printf` prints for `"%s"`: the bytes up to the first NUL. `none` if there is no NUL in the
buffer, so that it would read on behind it.
Source: `client.c`, `print_received_messages` (the argument of `printf`)
Kind: D -/
def printfString (data : List UInt8) : Option (List UInt8) :=
  if 0 ∈ data then some (data.takeWhile (· ≠ 0)) else none

/-- A buffer that begins with a string is printed as that string, whatever follows it.
Source: `client.c`, `client_send_pid_message`, `print_received_messages`
Kind: L -/
theorem printfString_stored (text : CString) (rest : List UInt8) :
    printfString (text.stored ++ rest) = some text.bytes := by
  have hmem : (0 : UInt8) ∈ text.stored ++ rest := by simp [CString.stored]
  have hall : ∀ b ∈ text.bytes, decide (b ≠ 0) = true := by
    intro b hb
    exact decide_eq_true (text.nul_free b hb)
  rw [printfString, if_pos hmem, CString.stored, List.append_assoc,
    List.takeWhile_append_of_pos hall]
  simp

/-! ## The state -/

/-- A message printed, and the text.
Source: `client.c`, `print_received_messages`
Kind: D -/
structure Printed where
  message : Tagged
  text : List UInt8

/-- A connection of a client: `requests` counts the messages it was asked to send, and `printed` is
the history of its output.
Source: `client.c`, `client_send_pid_message`, `print_received_messages`
Kind: D -/
structure ClientNode (Q : Type) where
  conn : Conn Q Unit
  requests : ℕ
  printed : List Printed

/-- A client has no worker function.
Source: none: infrastructure
Kind: D -/
def noHandler : Handler Empty Unit := fun env => env.elim

/-- The steps of the receive and the send thread.
Source: none: infrastructure
Kind: D -/
def ofThreads {ε : Type} : Label ε → Bool
  | .updateCall _ | .workDequeue _ | .handle _ | .enqueueOutgoing _ | .updateReturn _ => false
  | .recvfrom _ | .recvfromFailed | .createHeader _ _ | .readOwner | .readData
  | .enqueueIncoming _ | .sendDequeue _ | .encode | .address | .sendto => true

/-- Who moves, and what the system answers.
Source: `client.c`, `client_send_pid_message`, `print_received_messages`
Kind: D -/
inductive ClientLabel
  /-- A step of the receive or the send thread. -/
  | thread (label : Label Empty)
  /-- A round of `client_send_pid_message` for this connection. -/
  | send (calls : SendPidCalls) (pid : BitVec 32)
  /-- A round of `print_received_messages` for this connection. -/
  | print (calls : DequeueCalls)

/-- The `pthread_*` calls of the step succeed.
Source: none: infrastructure
Kind: D -/
def ClientLabel.PthreadOk : ClientLabel → Prop
  | .thread label => label.PthreadOk
  | .send calls _ => calls.enqueue = .allOk
  | .print calls => calls = .allOk

/-- Whether the `pthread_*` calls of a step succeed can be computed.
Source: none: infrastructure
Kind: D -/
instance : DecidablePred ClientLabel.PthreadOk
  | .thread label => inferInstanceAs (Decidable label.PthreadOk)
  | .send calls _ => inferInstanceAs (Decidable (calls.enqueue = .allOk))
  | .print calls => inferInstanceAs (Decidable (calls = .allOk))

/-! ## The steps -/

section step

variable {Q : Type} (ops : QueueOps Q) (server : SockaddrIn)

/-- One step of one of the four threads that use the connection; `server` is its entry of
`server_sockaddrs`. A message that is printed is not deleted.
Source: `client.c`, `client_send_pid_message` (one round), `print_received_messages` (one round);
`net_connection.c`
Kind: D
Fidelity: exact (`none` where a thread is elsewhere or has no defined next step) -/
def clientNodeStep (s : ClientNode Q) : ClientLabel → Option (ClientNode Q)
  | .thread label =>
      if ofThreads label then
        (step ops noHandler s.conn label).map fun conn => { s with conn := conn }
      else none
  | .send calls pid =>
      match clientPidMessage calls.create calls.fresh server pid with
      | none => some s
      | some message => do
          let t : Tagged := ⟨s.requests, message⟩
          let (status, q, dropped) ← ops.enqueue calls.enqueue s.conn.outgoing t
          some { s with
            conn := { s.conn with
              outgoing := q
              deleted := s.conn.deleted ++
                deletions .overflowOutgoing [.addToQueue] status dropped t }
            requests := s.requests + 1 }
  | .print calls => do
      let (r, q) ← ops.dequeueNonblocking calls s.conn.incoming
      match r with
      | none => some { s with conn := { s.conn with incoming := q } }
      | some t => do
          let text ← printfString t.body.data
          some { s with
            conn := { s.conn with incoming := q }
            printed := s.printed ++ [⟨t, text⟩] }

/-- What each step can do: one case for each outcome.
Source: `client.c`, `client_send_pid_message`, `print_received_messages`
Kind: D -/
inductive ClientMoved (s : ClientNode Q) : ClientLabel → ClientNode Q → Prop
  | thread {label : Label Empty} {conn : Conn Q Unit}
      (moved : Moved ops noHandler s.conn label conn) :
      ClientMoved s (.thread label) { s with conn := conn }
  | sendFailed {calls : SendPidCalls} {pid : BitVec 32} : ClientMoved s (.send calls pid) s
  | send {calls : SendPidCalls} {pid : BitVec 32} {status : MessageQueueStatus} {q : Q}
      {dropped : List Tagged}
      (enqueue : ops.enqueue calls.enqueue s.conn.outgoing ⟨s.requests, pidMessage server pid⟩ =
        some (status, q, dropped)) :
      ClientMoved s (.send calls pid)
        { s with
          conn := { s.conn with
            outgoing := q
            deleted := s.conn.deleted ++ deletions .overflowOutgoing [.addToQueue] status dropped
              ⟨s.requests, pidMessage server pid⟩ }
          requests := s.requests + 1 }
  | printEmpty {calls : DequeueCalls} {q : Q}
      (dequeue : ops.dequeueNonblocking calls s.conn.incoming = some (none, q)) :
      ClientMoved s (.print calls) { s with conn := { s.conn with incoming := q } }
  | print {calls : DequeueCalls} {q : Q} {t : Tagged} {text : List UInt8}
      (dequeue : ops.dequeueNonblocking calls s.conn.incoming = some (some t, q))
      (printed : printfString t.body.data = some text) :
      ClientMoved s (.print calls)
        { s with
          conn := { s.conn with incoming := q }
          printed := s.printed ++ [⟨t, text⟩] }

variable {ops server}

/-- A step of the client's node does one of these things.
Source: `client.c`, `client_send_pid_message`, `print_received_messages`
Kind: L -/
theorem clientMoved_of_nodeStep {s s' : ClientNode Q} {l : ClientLabel}
    (hs : clientNodeStep ops server s l = some s') : ClientMoved ops server s l s' := by
  cases l with
  | thread label =>
      simp only [clientNodeStep] at hs
      split_ifs at hs with hthreads
      obtain ⟨conn, hstep, rfl⟩ := Option.map_eq_some_iff.mp hs
      exact .thread (moved_of_step hstep)
  | send calls pid =>
      simp only [clientNodeStep] at hs
      split at hs
      · obtain rfl := Option.some.inj hs
        exact .sendFailed
      · rename_i message hmessage
        obtain ⟨⟨status, q, dropped⟩, henqueue, hs⟩ := Option.bind_eq_some_iff.mp hs
        obtain rfl := eq_pidMessage hmessage
        obtain rfl := Option.some.inj hs
        exact .send henqueue
  | print calls =>
      simp only [clientNodeStep] at hs
      obtain ⟨⟨r, q⟩, hdequeue, hs⟩ := Option.bind_eq_some_iff.mp hs
      cases r with
      | none =>
          obtain rfl := Option.some.inj hs
          exact .printEmpty hdequeue
      | some t =>
          obtain ⟨text, htext, hs⟩ := Option.bind_eq_some_iff.mp hs
          obtain rfl := Option.some.inj hs
          exact .print hdequeue htext

end step

/-- The abstract node that a node over ring buffers stands for.
Source: none: infrastructure
Kind: D -/
def ClientNode.fifo (s : ClientNode (MessageQueue Tagged)) : ClientNode (Fifo Tagged) :=
  { s with conn := s.conn.fifo }

/-- A step over ring buffers is the same step over abstract queues.
Source: `client.c`, `client_send_pid_message`, `print_received_messages`
Kind: P -/
theorem ClientMoved.refines {server : SockaddrIn} {s s' : ClientNode (MessageQueue Tagged)}
    {l : ClientLabel} (h : s.conn.Valid) (hm : ClientMoved ringOps server s l s') :
    ClientMoved fifoOps server s.fifo l s'.fifo ∧ s'.conn.Valid := by
  cases hm with
  | thread moved =>
      obtain ⟨hmoved, hvalid⟩ := moved.refines h
      exact ⟨.thread (s := s.fifo) hmoved, hvalid⟩
  | sendFailed => exact ⟨.sendFailed, h⟩
  | send enqueue =>
      obtain ⟨habs, hq⟩ := fifoOps_enqueue h.2 enqueue
      exact ⟨.send (s := s.fifo) habs, h.1, hq⟩
  | printEmpty dequeue =>
      obtain ⟨habs, hq⟩ := fifoOps_dequeueNonblocking h.1 dequeue
      exact ⟨.printEmpty (s := s.fifo) habs, hq, h.2⟩
  | print dequeue printed =>
      obtain ⟨habs, hq⟩ := fifoOps_dequeueNonblocking h.1 dequeue
      exact ⟨.print (s := s.fifo) habs printed, hq, h.2⟩

/-! ## The invariant -/

/-- What every step keeps, for a condition `A` on the datagrams that arrive, a condition `P` on
addresses and the pids asked for.
Source: none: infrastructure
Kind: D -/
structure ClientNode.Inv (A : Packet → Prop) (P : SockaddrIn → Prop) (server : SockaddrIn)
    (Asked : BitVec 32 → Prop) (s : ClientNode (Fifo Tagged)) : Prop where
  link : s.conn.Link A P
  outgoing : ∀ t ∈ s.conn.replies, ∃ pid, Asked pid ∧ t.body = pidMessage server pid
  printed : ∀ x ∈ s.printed, s.conn.Origin x.message.id x.message.body ∧
    printfString x.message.body.data = some x.text

section invariant

variable {A : Packet → Prop} {P : SockaddrIn → Prop} {server : SockaddrIn}
  {Asked : BitVec 32 → Prop} {s s' : ClientNode (Fifo Tagged)}

/-- The invariant holds for a client that has just been created.
Source: `client.c`, `client_send_pid_message`, `print_received_messages`
Kind: L -/
theorem ClientNode.Inv.init {socket : UdpSocket} {c₁ c₂ : ℕ} :
    (ClientNode.mk (Conn.init socket ⟨c₁, []⟩ ⟨c₂, []⟩ ()) 0 []).Inv A P server Asked where
  link := .init
  outgoing := fun _ ht => absurd ht List.not_mem_nil
  printed := fun _ hx => absurd hx List.not_mem_nil

/-- Whatever leaves the outgoing queue to make room, a request that joins it keeps the link.
Source: `client.c`, `client_send_pid_message`, `print_received_messages`
Kind: L -/
theorem replies_of_enqueue {conn : Conn (Fifo Tagged) Unit} {q : Fifo Tagged} {t : Tagged}
    {dropped : List Tagged} (deleted : List (DeleteSite × Tagged))
    (hsub : (dropped ++ q.items).Sublist (conn.outgoing.items ++ [t])) :
    ∀ t' ∈ ({ conn with outgoing := q, deleted := deleted } : Conn (Fifo Tagged) Unit).replies,
      t' ∈ conn.replies ∨ t' = t := by
  intro t' ht'
  have hq : ∀ x ∈ q.items, x ∈ conn.outgoing.items ∨ x = t := by
    intro x hx
    simpa using hsub.subset (List.mem_append_right dropped hx)
  simp only [Conn.replies, Conn.waiting, List.mem_append] at ht' ⊢
  rcases ht' with hsent | (hhand | hqueue) | hanswered
  · exact .inl (.inl hsent)
  · exact .inl (.inr (.inl (.inl hhand)))
  · rcases hq t' hqueue with hold | hnew
    · exact .inl (.inr (.inl (.inr hold)))
    · exact .inr hnew
  · exact .inl (.inr (.inr hanswered))

/-- A round of `client_send_pid_message`.
Source: `client.c`, `client_send_pid_message`, `print_received_messages`
Kind: L -/
theorem ClientNode.Inv.sent (h : s.Inv A P server Asked) (hserver : P server) {pid : BitVec 32}
    (hasked : Asked pid) {q : Fifo Tagged} {dropped : List Tagged}
    {deleted : List (DeleteSite × Tagged)} {requests : ℕ}
    (hsub : (dropped ++ q.items).Sublist
      (s.conn.outgoing.items ++ [⟨s.requests, pidMessage server pid⟩])) :
    ClientNode.Inv A P server Asked
      { s with
        conn := { s.conn with outgoing := q, deleted := deleted }
        requests := requests } := by
  obtain ⟨hlink, houtgoing, hprinted⟩ := h
  have hreplies := replies_of_enqueue deleted hsub
  refine ⟨⟨hlink.receipts, hlink.decoding, hlink.requests, hlink.field, hlink.recvOwner,
    hlink.requestOwner, ?_, hlink.encoding, hlink.sent⟩, ?_, hprinted⟩
  · intro t ht
    rcases hreplies t ht with hold | rfl
    · exact hlink.replyOwner t hold
    · exact hserver
  · intro t ht
    rcases hreplies t ht with hold | rfl
    · exact houtgoing t hold
    · exact ⟨pid, hasked, rfl⟩

/-- A message taken from the incoming queue.
Source: `client.c`, `client_send_pid_message`, `print_received_messages`
Kind: L -/
theorem ClientNode.Inv.taken (h : s.Inv A P server Asked) {q : Fifo Tagged}
    (hsub : q.items.Sublist s.conn.incoming.items) {printed : List Printed}
    (hprinted : ∀ x ∈ printed, s.conn.Origin x.message.id x.message.body ∧
      printfString x.message.body.data = some x.text) :
    ClientNode.Inv A P server Asked
      { s with conn := { s.conn with incoming := q }, printed := printed } := by
  obtain ⟨hlink, houtgoing, -⟩ := h
  have hrequests : ∀ t ∈ ({ s.conn with incoming := q } : Conn (Fifo Tagged) Unit).requests,
      t ∈ s.conn.requests := by
    intro t ht
    exact (hsub.append_left s.conn.work.unhandled).subset ht
  exact ⟨⟨hlink.receipts, hlink.decoding, fun t ht => hlink.requests t (hrequests t ht),
    hlink.field, hlink.recvOwner, fun t ht => hlink.requestOwner t (hrequests t ht),
    hlink.replyOwner, hlink.encoding, hlink.sent⟩, houtgoing, hprinted⟩

/-- **Every step keeps the invariant**, as long as the datagrams that arrive meet `A` and the pids
are among those asked for.
Source: `client.c`, `client_send_pid_message`, `print_received_messages`
Kind: P -/
theorem ClientNode.Inv.moved (h : s.Inv A P server Asked)
    (hsource : ∀ packet, A packet → P packet.source) (hserver : P server) {l : ClientLabel}
    (hm : ClientMoved fifoOps server s l s')
    (hA : ∀ packet, l = .thread (.recvfrom packet) → A packet)
    (hAsked : ∀ calls pid, l = .send calls pid → Asked pid) : s'.Inv A P server Asked := by
  cases hm with
  | @thread label conn moved =>
      have hflow := moved.flowed
      have hpre := hflow.receipts_isPrefix
      refine ⟨h.link.moved (fun env => env.elim) hsource moved
        (fun packet hl => hA packet (by rw [hl])), ?_, ?_⟩
      · apply hflow.forall_replies h.outgoing
        intro env
        exact env.elim
      · intro x hx
        obtain ⟨horigin, htext⟩ := h.printed x hx
        exact ⟨horigin.mono hpre, htext⟩
  | sendFailed => exact h
  | @send calls pid status q dropped enqueue =>
      have hsub := Fifo.sublist_of_enqueue (Option.some.inj enqueue)
      exact h.sent hserver (hAsked calls pid rfl) hsub
  | printEmpty dequeue =>
      obtain ⟨hsub, -, -⟩ := Fifo.items_of_dequeue_none (Option.some.inj dequeue)
      exact h.taken hsub h.printed
  | @print calls q t text dequeue printed =>
      obtain ⟨hitems, -⟩ := Fifo.items_of_dequeue_some (Option.some.inj dequeue)
      have hmem : t ∈ s.conn.requests := by simp [Conn.requests, hitems]
      refine h.taken (by rw [hitems]; exact List.sublist_cons_self t q.items) ?_
      intro x hx
      rcases List.mem_append.mp hx with hx | hx
      · exact h.printed x hx
      · rw [List.mem_singleton.mp hx]
        exact ⟨h.link.requests t hmem, printed⟩

end invariant

end CpuMonitor.Client
