import CpuMonitor.Client.RequestReply
import CpuMonitor.Server.Flow

/-!
# Does the header of a message describe its buffer?

A message carries its `length` and its `capacity` in the header and its data in a block of which
nothing else keeps the size. `message_create`, `message_write` and `message_set_data` keep the two
numbers in step with the block; `net_connection_read_header` overwrites both with bytes of the
peer.

* `Consistent` — the representation invariant; it makes `message_size` exact
  (`Consistent.messageSize_eq`). A created message has it, `Edited` lists what the code outside
  the receive path does to a message, and all of that keeps it (`Edited.consistent`).
* `WireConsistent` — what the header in a datagram has to say for the decoded message to have it
  (`consistent_built_iff`).
* `queued_consistent` — every run: which messages in the two queues have it.
-/

namespace CpuMonitor.Server

open CpuMonitor.Lib CpuMonitor.Network CpuMonitor.Client

variable {σ ε : Type} {handler : Handler ε σ} {m m' : Message}

/-! ## The invariant -/

/-- The length is within the capacity, the capacity within the block at `data`, and the size of the
whole message is a `uint32_t`.
Source: `message.h`, `message_header_t`
Kind: D -/
structure Consistent (m : Message) : Prop where
  length_le : m.header.length.toNat ≤ m.header.capacity.toNat
  capacity_le : m.header.capacity.toNat ≤ m.data.length
  size_le : m.header.capacity.toNat ≤ uint32Max - sizeofMessageHeader

/-- Whether a message is consistent can be computed.
Source: none: infrastructure
Kind: D -/
instance (m : Message) : Decidable (Consistent m) :=
  decidable_of_iff (m.header.length.toNat ≤ m.header.capacity.toNat ∧
      m.header.capacity.toNat ≤ m.data.length ∧
      m.header.capacity.toNat ≤ uint32Max - sizeofMessageHeader)
    ⟨fun h => ⟨h.1, h.2.1, h.2.2⟩, fun h => ⟨h.1, h.2, h.3⟩⟩

/-- The size of a consistent message does not wrap around.
Source: `message.c`, `message_size`
Kind: P -/
theorem Consistent.messageSize_eq (h : Consistent m) :
    (messageSize m).toNat = sizeofMessageHeader + m.header.length.toNat := by
  have hlength := h.length_le
  have hsize := h.size_le
  have hmax : uint32Max - sizeofMessageHeader + sizeofMessageHeader < 2 ^ 32 := by decide
  exact UInt32.toNat_ofNat_of_lt' (show _ < 2 ^ 32 by omega)

/-! ## The operations keep it -/

/-- A message that was created is consistent.
Source: `message.c`, `message_create`
Kind: L -/
theorem consistent_of_messageCreate {calls : MessageCreateCalls} {fresh : FreshMemory}
    {type : MessageType} {dataCapacity : UInt32}
    (h : messageCreate calls fresh type dataCapacity = some m) : Consistent m := by
  obtain ⟨hsize, rfl⟩ := messageCreate_eq_some h
  exact ⟨Nat.zero_le _, (fresh.length_block _).ge, hsize⟩

/-- A write keeps a message consistent.
Source: `message.c`, `message_write`
Kind: L -/
theorem Consistent.messageWrite (h : Consistent m) {data : List UInt8} {length : UInt32}
    {status : MessageStatus} (hwrite : messageWrite m data length = some (status, m')) :
    Consistent m' := by
  rcases messageWrite_cases hwrite with rfl | ⟨hcap, -, hheader, hdata⟩
  · exact h
  · refine ⟨?_, ?_, ?_⟩
    · rw [hheader]
      exact UInt32.le_iff_toNat_le.mp hcap
    · rw [hheader, hdata]
      exact h.capacity_le
    · rw [hheader]
      exact h.size_le

/-- Every string whose message would still have a `uint32_t` size.
Source: `server.c`, `message_set_data`
Kind: L -/
theorem Consistent.messageSetData (h : Consistent m) {env : HandlerEnv} {text : CString}
    (htext : text.strlen + 1 ≤ uint32Max - sizeofMessageHeader)
    (hset : messageSetData env m text = some m') : Consistent m' := by
  have hmax : uint32Max - sizeofMessageHeader < 2 ^ 32 := by decide
  have hnat : (UInt32.ofNat (text.strlen + 1)).toNat = text.strlen + 1 :=
    UInt32.toNat_ofNat_of_lt' (show _ < 2 ^ 32 by omega)
  rcases messageSetData_cases hset with rfl | ⟨hcap, hheader, hdata⟩ | ⟨hheader, hdata⟩
  · exact h
  · refine ⟨?_, ?_, ?_⟩
    · rw [hheader]
      exact hnat.le.trans hcap
    · rw [hheader, hdata]
      exact h.capacity_le
    · rw [hheader]
      exact h.size_le
  · -- the new block is the string with its terminator, and both numbers say so
    refine ⟨?_, ?_, ?_⟩
    · rw [hheader]
    · rw [hheader, hdata]
      exact hnat.le
    · rw [hheader]
      exact hnat.le.trans htext

/-- What the code outside the receive path does to a message: `message_write`, `message_set_data`
with a string that fits in a message, and stores to `type` and `owner_addr`.
Source: `message.c`, `message_write`; `server.c`, `message_set_data`
Kind: D -/
inductive Edited (m : Message) : Message → Prop
  | refl : Edited m m
  | write {m₁ m₂ : Message} {data : List UInt8} {length : UInt32} {status : MessageStatus} :
      Edited m m₁ → Network.messageWrite m₁ data length = some (status, m₂) → Edited m m₂
  | setData {m₁ m₂ : Message} {env : HandlerEnv} {text : CString} : Edited m m₁ →
      text.strlen + 1 ≤ uint32Max - sizeofMessageHeader →
      Server.messageSetData env m₁ text = some m₂ → Edited m m₂
  | relabel {m₁ : Message} (type : UInt32) (owner : SockaddrIn) : Edited m m₁ →
      Edited m { m₁ with header := { m₁.header with type := type, ownerAddr := owner } }

/-- **Every sequence of these operations keeps the invariant.**
Source: `message.c`, `message_write`; `server.c`, `message_set_data`
Kind: P -/
theorem Edited.consistent (he : Edited m m') (h : Consistent m) : Consistent m' := by
  induction he with
  | refl => exact h
  | write _ hwrite ih => exact ih.messageWrite hwrite
  | setData _ htext hset ih => exact ih.messageSetData htext hset
  | relabel type owner _ ih => exact ⟨ih.length_le, ih.capacity_le, ih.size_le⟩

/-- A text of the handler fits in a message.
Source: none: infrastructure
Kind: L -/
theorem strlen_bufferText_le (text : BufferText) :
    text.1.strlen + 1 ≤ uint32Max - sizeofMessageHeader :=
  text.2.trans_le (show textBufferSize ≤ _ by decide)

/-- The worker function does nothing else.
Source: `server.c`, `worker_on_message`
Kind: L -/
theorem edited_of_workerOnMessage {env : HandlerEnv} {j j' : Journal}
    (h : workerOnMessage env j m = some (m', j')) : Edited m m' := by
  obtain ⟨a, hanswer, hreply⟩ := answer_of_workerOnMessage h
  obtain ⟨type, ha⟩ := message_of_workerAnswer hanswer
  have hrelabel : Edited m a.message := ha ▸ .relabel type m.header.ownerAddr .refl
  rcases Answer.reply_cases hreply with rfl | ⟨response, -, hset⟩
  · exact hrelabel
  · exact .setData hrelabel (strlen_bufferText_le response) hset

/-- The client's message: the length is stored before the write, and the capacity is exact.
Source: `client.c`, `client_send_pid_message`
Kind: L -/
theorem consistent_of_clientPidMessage {calls : MessageCreateCalls} {fresh : FreshMemory}
    {server : SockaddrIn} {pid : BitVec 32}
    (h : clientPidMessage calls fresh server pid = some m) : Consistent m := by
  unfold clientPidMessage at h
  obtain ⟨new, hcreate, h⟩ := Option.bind_eq_some_iff.mp h
  obtain ⟨⟨status, m₁⟩, hwrite, h⟩ := Option.bind_eq_some_iff.mp h
  cases h
  have hnew := consistent_of_messageCreate hcreate
  obtain ⟨-, rfl⟩ := messageCreate_eq_some hcreate
  refine Consistent.messageWrite ?_ hwrite
  exact ⟨le_rfl, hnew.capacity_le, hnew.size_le⟩

/-! ## The receive path -/

/-- The header of a datagram tells the truth about the block it will be read into.
Source: `net_connection.c`, `net_connection_receive_thread_func`
Kind: D -/
def WireConsistent (header : MessageHeader) : Prop :=
  header.length.toNat ≤ header.capacity.toNat ∧ header.capacity.toNat ≤ udpSocketBufferSize

/-- **A decoded message is consistent exactly when its datagram said the truth**: the receive
thread checks neither number against the block, and keeps a length that it rejects.
Source: `net_connection.c`, `net_connection_receive_thread_func`
Kind: P -/
theorem consistent_built_iff (buffer : SocketBuffer) (owner : SockaddrIn) (fresh : FreshMemory) :
    Consistent (built buffer owner (fresh.block udpSocketBufferSize)) ↔
      WireConsistent (wireHeader buffer) := by
  have hdata : (built buffer owner (fresh.block udpSocketBufferSize)).data.length =
      udpSocketBufferSize :=
    (length_data_builtData (maxPayload_le_block fresh)).trans (fresh.length_block _)
  have hlength : (built buffer owner (fresh.block udpSocketBufferSize)).header.length =
      (wireHeader buffer).length := by
    unfold built builtData
    split_ifs <;> rfl
  have hcapacity : (built buffer owner (fresh.block udpSocketBufferSize)).header.capacity =
      (wireHeader buffer).capacity := by
    unfold built builtData
    split_ifs <;> rfl
  have hmax : udpSocketBufferSize ≤ uint32Max - sizeofMessageHeader := by decide
  constructor
  · intro h
    have hle := h.length_le
    have hcap := h.capacity_le
    rw [hlength, hcapacity] at hle
    rw [hcapacity, hdata] at hcap
    exact ⟨hle, hcap⟩
  · rintro ⟨hle, hcap⟩
    refine ⟨?_, ?_, ?_⟩
    · rwa [hlength, hcapacity]
    · rwa [hcapacity, hdata]
    · rw [hcapacity]
      exact hcap.trans hmax

/-! ## Every run -/

/-- **The representation invariant of the messages in the queues.** For every worker function that
edits messages with the operations of `Edited`, every sequence of datagrams, every interleaving and
every outcome of the `pthread_*` calls: a message in the incoming queue has the invariant exactly
when the header its datagram was read with is consistent, a message in the outgoing queue has it if
that header was; a message of the client has it, and with it `message_size` is exact.
Source: `message.c`; `net_connection.c`, `net_connection_receive_thread_func`; `server.c`,
`message_set_data`; `client.c`, `client_send_pid_message`
Kind: P
Hyps: the capacities of the queues are `int`s -/
theorem queued_consistent {calls₁ calls₂ : CreateCalls} {c₁ c₂ : ℤ} {q₁ q₂ : MessageQueue Tagged}
    (hc₁ : c₁ ≤ intMax) (hc₂ : c₂ ≤ intMax) (hq₁ : messageQueueCreate calls₁ c₁ = some q₁)
    (hq₂ : messageQueueCreate calls₂ c₂ = some q₂)
    (hedits : ∀ env store m m' store', handler env store m = some (m', store') → Edited m m')
    (socket : UdpSocket) (store : σ) {ls : List (Label ε)} {s : Conn (MessageQueue Tagged) σ}
    (h : Run (step ringOps handler) (fun _ _ => True) (Conn.init socket q₁ q₂ store) ls s) :
    (∀ t ∈ s.incoming.contents, ∃ r, s.receipts[t.id]? = some r ∧
      (Consistent t.body ↔ WireConsistent (wireHeader r.buffer))) ∧
    (∀ t ∈ s.outgoing.contents, ∃ r, s.receipts[t.id]? = some r ∧
      (WireConsistent (wireHeader r.buffer) → Consistent t.body)) ∧
    (∀ calls fresh server pid m, clientPidMessage calls fresh server pid = some m →
      Consistent m) ∧
    ∀ m, Consistent m →
      (messageSize m).toNat = sizeofMessageHeader + m.header.length.toNat := by
  have htraced : s.fifo.Traced handler := traced_of_run hc₁ hc₂ hq₁ hq₂ h
  refine ⟨?_, ?_, fun _ _ _ _ _ hclient => consistent_of_clientPidMessage hclient,
    fun _ hm => hm.messageSize_eq⟩
  · intro t ht
    obtain ⟨r, hr, owner, fresh, hbody⟩ := htraced.requests t (List.mem_append_right _ ht)
    refine ⟨r, hr, ?_⟩
    rw [hbody]
    exact consistent_built_iff r.buffer owner fresh
  · intro t ht
    have hreply : t ∈ s.fifo.replies :=
      List.mem_append_right _ (List.mem_append_left _ (List.mem_append_right _ ht))
    obtain ⟨x, hx, hid, hafter⟩ := htraced.replies t hreply
    obtain ⟨⟨r, hr, owner, fresh, hbefore⟩, env, store₁, store₂, hcall⟩ := htraced.log x hx
    refine ⟨r, hid ▸ hr, ?_⟩
    intro hwire
    rw [← hafter]
    apply (hedits env store₁ x.before x.after store₂ hcall).consistent
    rw [hbefore]
    exact (consistent_built_iff r.buffer owner fresh).mpr hwire

/-! ## Headers that say the truth, and others -/

/-- A datagram that is a header alone.
Source: none: infrastructure
Kind: D -/
def headerRequest (type length capacity : UInt32) : Packet :=
  ⟨MessageHeader.bytes ⟨type, length, ⟨0, 0, 0, 0⟩, capacity⟩, firstClient⟩

/-- A request of an unknown type with a consistent header, echoed by the worker.
Source: `server.c`, `worker_on_message`
Kind: C -/
theorem queued_consistent_echo :
    ∃ s, Run (step ringOps workerOnMessage) (fun _ _ => True) newWorker
        (receiveLabels (headerRequest 2 0 7) zeroMemory .allOk ++ handleLabels quietEnv .allOk) s ∧
      s.outgoing.contents.map Tagged.id = [0] ∧
      ∀ t ∈ s.outgoing.contents, Consistent t.body := by
  obtain ⟨s, hrun, hs⟩ := Run.exists_of_exec
    (show (exec (step ringOps workerOnMessage) (fun _ _ => True) newWorker
        (receiveLabels (headerRequest 2 0 7) zeroMemory .allOk ++
          handleLabels quietEnv .allOk)).map
      (fun s => decide (s.outgoing.contents.map Tagged.id = [0] ∧
        s.receipts.map (fun r => ((wireHeader r.buffer).length, (wireHeader r.buffer).capacity)) =
          [(0, 7)])) = some true by decide +kernel)
  obtain ⟨hqueue, hreceipts⟩ := of_decide_eq_true hs
  refine ⟨s, hrun, hqueue, ?_⟩
  intro t ht
  obtain ⟨r, hr, hconsistent⟩ := (queued_consistent (by decide) (by decide)
    messageQueueCreate_emptyQueue messageQueueCreate_emptyQueue
    (fun _ _ _ _ _ => edited_of_workerOnMessage) _ _ hrun).2.1 t ht
  apply hconsistent
  have hmem := List.mem_map_of_mem
    (f := fun r : Receipt => ((wireHeader r.buffer).length, (wireHeader r.buffer).capacity))
    (List.mem_of_getElem? hr)
  rw [hreceipts, List.mem_singleton, Prod.mk.injEq] at hmem
  rw [WireConsistent, hmem.1, hmem.2]
  decide

/-- **Headers that lie.** A datagram that declares `2 ^ 32 - 1` bytes of data and no capacity is
rejected by `net_connection_read_data` and queued all the same: its length exceeds its capacity and
its size wraps around to 27. A datagram of an unknown type that declares a capacity of
`2 ^ 32 - 1` is queued, and echoed into the outgoing queue, with a block of 2000 bytes.
Source: `server.c`, `worker_on_message`; `message.c`, `message_size`
Kind: C -/
theorem received_header_lies :
    (∃ s, Run (step ringOps workerOnMessage) (fun _ _ => True) newWorker
        (receiveLabels (headerRequest 1 (2 ^ 32 - 1) 0) zeroMemory .allOk) s ∧
      ∃ t ∈ s.incoming.contents, ¬ Consistent t.body ∧
        t.body.header.capacity < t.body.header.length ∧ messageSize t.body = 27) ∧
    ∃ s, Run (step ringOps workerOnMessage) (fun _ _ => True) newWorker
        (receiveLabels (headerRequest 2 0 (2 ^ 32 - 1)) zeroMemory .allOk ++
          handleLabels quietEnv .allOk) s ∧
      ∃ t ∈ s.outgoing.contents, ¬ Consistent t.body ∧ t.body.data.length = 2000 ∧
        t.body.header.capacity.toNat = uint32Max := by
  obtain ⟨s₁, hrun₁, hs₁⟩ := Run.exists_of_exec
    (show (exec (step ringOps workerOnMessage) (fun _ _ => True) newWorker
        (receiveLabels (headerRequest 1 (2 ^ 32 - 1) 0) zeroMemory .allOk)).map
      (fun s => decide (∃ t ∈ s.incoming.contents, ¬ Consistent t.body ∧
        t.body.header.capacity < t.body.header.length ∧ messageSize t.body = 27)) =
          some true by decide +kernel)
  obtain ⟨s₂, hrun₂, hs₂⟩ := Run.exists_of_exec
    (show (exec (step ringOps workerOnMessage) (fun _ _ => True) newWorker
        (receiveLabels (headerRequest 2 0 (2 ^ 32 - 1)) zeroMemory .allOk ++
          handleLabels quietEnv .allOk)).map
      (fun s => decide (∃ t ∈ s.outgoing.contents, ¬ Consistent t.body ∧
        t.body.data.length = 2000 ∧ t.body.header.capacity.toNat = uint32Max)) =
          some true by decide +kernel)
  exact ⟨⟨s₁, hrun₁, of_decide_eq_true hs₁⟩, s₂, hrun₂, of_decide_eq_true hs₂⟩

end CpuMonitor.Server
