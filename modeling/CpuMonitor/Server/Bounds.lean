import CpuMonitor.Server.Flow

/-!
# No datagram drives the worker outside a message's buffer

The size of the block at `message->data` is tracked nowhere: `length` and `capacity` in the header
are the peer's words. What keeps every access in bounds is a chain over the three loops. A received
message always has a block of `UDP_SOCKET_BUFFER_SIZE` bytes; a length that exceeds the largest
payload is read by nobody but the send path, and its message, of type `MESSAGE_TYPE_NONE` by then,
gets a text first; and a text is shorter than that block and than the largest payload.

Every copy of the model is `none` outside its block (`load`, `store`), so that an access out of
bounds is a step without an outcome. `worker_in_bounds` says that no reachable state has one before
it.
-/

namespace CpuMonitor.Server

open CpuMonitor.Lib CpuMonitor.Network

/-! ## The worker function when its calls succeed -/

/-- Answers of the system with which `snprintf` and `realloc` succeed.
Source: `server.c`, `worker_on_message`
Kind: D -/
abbrev OkEnv : Type := { env : HandlerEnv // env.AllOk }

/-- `worker_on_message` under such answers.
Source: `server.c`, `worker_on_message`
Kind: D -/
def workerOnMessageOk : Handler OkEnv Journal := fun env => workerOnMessage env.1

/-! ## Requests -/

section request

variable {r : Receipt} {m : Message}

/-- The data of a decoded message is a block of the size of the socket's buffer.
Source: `net_connection.c`, `net_connection_receive_thread_func`
Kind: L -/
theorem length_data_of_decodedFrom (h : DecodedFrom r m) :
    m.data.length = udpSocketBufferSize := by
  obtain ⟨owner, fresh, rfl⟩ := h
  exact (length_data_builtData (maxPayload_le_block fresh)).trans (fresh.length_block _)

/-- A length that was rejected comes with the type `MESSAGE_TYPE_NONE`.
Source: `net_connection.c`, the two thread functions; `server.c`, `worker_on_message`
Kind: L -/
theorem length_le_of_decodedFrom (h : DecodedFrom r m)
    (htype : m.header.type ≠ MessageType.none.code) : m.header.length.toNat ≤ maxPayload := by
  obtain ⟨owner, fresh, rfl⟩ := h
  unfold built builtData at htype ⊢
  split_ifs at htype ⊢ with hle
  · exact hle
  · exact absurd rfl htype

end request

/-! ## Replies -/

/-- A message the send path accepts: its payload lies in the block, which has the size
`message_create` or `realloc` gave it, and fits in a datagram.
Source: none: infrastructure
Kind: D -/
structure Encodable (m : Message) : Prop where
  fits : m.header.length.toNat ≤ maxPayload
  inBlock : m.header.length.toNat ≤ m.data.length
  block : m.data.length = udpSocketBufferSize ∨ m.data.length = m.header.length.toNat

/-- A message with a text of the handler is one.
Source: `net_connection.c`, the two thread functions; `server.c`, `worker_on_message`
Kind: L -/
theorem encodable_withText {m : Message} (hdata : m.data.length = udpSocketBufferSize)
    (response : BufferText) : Encodable (withText m response.1) := by
  have hlength := toNat_length_withText (m := m) response.2
  have hmax := textBufferSize_le_maxPayload
  have hsize : textBufferSize ≤ udpSocketBufferSize := by decide
  have htext := response.2
  refine ⟨by omega, length_le_data_withText htext, ?_⟩
  rw [hlength]
  unfold withText
  split_ifs
  · left
    rw [List.length_append, List.length_drop, CString.length_stored, hdata]
    omega
  · right
    rw [CString.length_stored]

/-- **The worker function in bounds**: it reads the pid and writes the text inside the block, and
leaves a message that the send path accepts.
Source: `net_connection.c`, the two thread functions; `server.c`, `worker_on_message`
Kind: P -/
theorem reply_encodable {env : HandlerEnv} (hok : env.AllOk) {r : Receipt} {m : Message}
    (h : DecodedFrom r m) :
    ∃ a m', workerAnswer env m = some a ∧ a.reply env = some m' ∧ Encodable m' := by
  have hdata := length_data_of_decodedFrom h
  have hmax : maxPayload ≤ udpSocketBufferSize := by decide
  obtain ⟨a, m', hanswer, hreply, ⟨hnone, -, rfl⟩ | ⟨type, response, rfl⟩⟩ :=
    reply_of_allOk hok (show maxPayload ≤ m.data.length by omega)
  · -- an unknown type is echoed, with a length that was accepted
    have hlength := length_le_of_decodedFrom h hnone
    exact ⟨a, m', hanswer, hreply, hlength, by omega, .inl hdata⟩
  · refine ⟨a, _, hanswer, hreply, ?_⟩
    apply encodable_withText
    exact hdata

/-! ## Every run -/

/-- Nothing a loop is about to do leaves the buffer of its message, and the send path rejects no
message.
Source: none: infrastructure
Kind: D -/
structure Conn.InBounds (s : Conn (MessageQueue Tagged) Journal) : Prop where
  /-- `net_connection_read_data`. -/
  decode : ∀ t, s.recv = .owned t → t.body.data.length = udpSocketBufferSize ∧
    ∃ m, receiveData s.socket t.body = some m
  /-- `worker_on_message`: the pid, then `message_write`, or `realloc` and `strcpy`. -/
  handle : ∀ left t, s.work = .got left t → t.body.data.length = udpSocketBufferSize ∧
    ∀ env : HandlerEnv, env.AllOk → ∃ a m', workerAnswer env t.body = some a ∧
      a.reply env = some m' ∧ Encodable m'
  /-- `net_connection_write_header` and `net_connection_write_data`. -/
  encode : ∀ t, s.send = .taken t → Encodable t.body ∧
    ∃ s₁ s₂, netConnectionWriteHeader s.socket t.body.header = some s₁ ∧
      netConnectionWriteData s₁ t.body = some (.success, s₂)
  /-- What waits to be encoded. -/
  queued : ∀ t ∈ s.outgoing.contents, Encodable t.body

/-- Encoding a message that the send path accepts.
Source: `net_connection.c`, the two thread functions; `server.c`, `worker_on_message`
Kind: L -/
theorem Encodable.write {m : Message} (h : Encodable m) (s : UdpSocket) :
    ∃ s₁ s₂, netConnectionWriteHeader s m.header = some s₁ ∧
      netConnectionWriteData s₁ m = some (.success, s₂) := by
  obtain ⟨b₁, hwrite₁, hheader⟩ := netConnectionWriteHeader_eq s m.header
  obtain ⟨b₂, hwrite₂, -⟩ :=
    @netConnectionWriteData_of_le { s with outcomingBuffer := b₁ } m hheader h.fits h.inBlock
  exact ⟨_, _, hwrite₁, hwrite₂⟩

/-- Every message after the worker function is accepted by the send path.
Source: `net_connection.c`, the two thread functions; `server.c`, `worker_on_message`
Kind: L -/
theorem Conn.Traced.encodable {s : Conn (Fifo Tagged) Journal} (h : s.Traced workerOnMessageOk)
    {t : Tagged} (ht : t ∈ s.replies) : Encodable t.body := by
  obtain ⟨x, hx, -, hafter⟩ := h.replies t ht
  obtain ⟨⟨r, -, hdecoded⟩, env, store, store', hcall⟩ := h.log x hx
  obtain ⟨a, hanswer, hreply⟩ := answer_of_workerOnMessage hcall
  obtain ⟨a', m', hanswer', hreply', hencodable⟩ := reply_encodable env.2 hdecoded
  -- the call is the one that stays in bounds
  rw [hanswer, Option.some.injEq] at hanswer'
  subst hanswer'
  rw [hreply, Option.some.injEq] at hreply'
  rw [← hafter, hreply']
  exact hencodable

/-- **Adversarial datagrams stay in bounds.** For every sequence of datagrams (any bytes), every
answer of the process table, every interleaving and every outcome of the `pthread_*` calls, with
`snprintf` and `realloc` succeeding: whatever the receive thread, the worker function and the send
thread are about to copy to or from `message->data` lies in its block, of
`UDP_SOCKET_BUFFER_SIZE` bytes or of the size of the text after `realloc`, and
`net_connection_write_data` rejects no reply.
Source: `net_connection.c`, the two thread functions; `server.c`, `worker_on_message`,
`message_set_data`; `message.c`, `message_write`
Kind: P
Hyps: the capacities of the queues are `int`s -/
theorem worker_in_bounds {calls₁ calls₂ : CreateCalls} {c₁ c₂ : ℤ} {q₁ q₂ : MessageQueue Tagged}
    (hc₁ : c₁ ≤ intMax) (hc₂ : c₂ ≤ intMax) (hq₁ : messageQueueCreate calls₁ c₁ = some q₁)
    (hq₂ : messageQueueCreate calls₂ c₂ = some q₂) (socket : UdpSocket) (journal : Journal)
    {ls : List (Label OkEnv)} {s : Conn (MessageQueue Tagged) Journal}
    (h : Run (step ringOps workerOnMessageOk) (fun _ _ => True)
      (Conn.init socket q₁ q₂ journal) ls s) : s.InBounds := by
  have htraced : s.fifo.Traced workerOnMessageOk := traced_of_run hc₁ hc₂ hq₁ hq₂ h
  have hmax : maxPayload ≤ udpSocketBufferSize := by decide
  refine ⟨?_, ?_, ?_, ?_⟩
  · intro t hpc
    have hdecoding := htraced.decoding
    simp only [Conn.Decoding, Conn.fifo, hpc] at hdecoding
    obtain ⟨r, -, -, owner, fresh, hbody⟩ := hdecoding
    have hblock : t.body.data = fresh.block udpSocketBufferSize := by rw [hbody]
    have hdata : t.body.data.length = udpSocketBufferSize := by
      rw [hblock, FreshMemory.length_block]
    exact ⟨hdata, _, receiveData_eq (hdata ▸ hmax)⟩
  · intro left t hpc
    have hrequest : t ∈ s.fifo.requests := by
      simp [Conn.requests, Conn.fifo, WorkPc.unhandled, hpc]
    obtain ⟨r, -, hdecoded⟩ := htraced.requests t hrequest
    exact ⟨length_data_of_decodedFrom hdecoded, fun env hok => reply_encodable hok hdecoded⟩
  · intro t hpc
    have hreply : t ∈ s.fifo.replies := by
      simp [Conn.replies, Conn.waiting, Conn.fifo, SendPc.hand, hpc]
    have hencodable := htraced.encodable hreply
    exact ⟨hencodable, hencodable.write s.socket⟩
  · intro t ht
    exact htraced.encodable
      (List.mem_append_right _ (List.mem_append_left _ (List.mem_append_right _ ht)))

/-- A datagram that declares a capacity of `2 ^ 32 - 1` and more data than fits: its message gets a
text in the block of 2000 bytes.
Source: `net_connection.c`, the two thread functions; `server.c`, `worker_on_message`
Kind: C -/
theorem worker_in_bounds_liar :
    ∃ s, Run (step ringOps workerOnMessageOk) (fun _ _ => True) newWorker
        (receiveLabels ⟨MessageHeader.bytes ⟨1, 2 ^ 32 - 1, ⟨0, 0, 0, 0⟩, 2 ^ 32 - 1⟩, firstClient⟩
          zeroMemory .allOk ++ handleLabels ⟨quietEnv, quietEnv_allOk⟩ .allOk) s ∧
      s.outgoing.contents.map (fun t => (t.body.header.length, t.body.data.length)) =
        [(8, 2000)] ∧ s.InBounds := by
  obtain ⟨s, hrun, hs⟩ := Run.exists_of_exec
    (show (exec (step ringOps workerOnMessageOk) (fun _ _ => True) newWorker
        (receiveLabels ⟨MessageHeader.bytes ⟨1, 2 ^ 32 - 1, ⟨0, 0, 0, 0⟩, 2 ^ 32 - 1⟩, firstClient⟩
          zeroMemory .allOk ++ handleLabels ⟨quietEnv, quietEnv_allOk⟩ .allOk)).map
      (fun s => decide (s.outgoing.contents.map
        (fun t => (t.body.header.length, t.body.data.length)) = [(8, 2000)])) =
          some true by decide +kernel)
  exact ⟨s, hrun, of_decide_eq_true hs, worker_in_bounds (by decide) (by decide)
    messageQueueCreate_emptyQueue messageQueueCreate_emptyQueue _ _ hrun⟩

end CpuMonitor.Server
