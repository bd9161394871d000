import CpuMonitor.Server.Worker

/-!
# One request served: receive, handle, send

The path of one datagram through a worker: the receive thread decodes it from the reused buffer,
`worker_on_message` turns it into a reply, the send thread encodes and sends that.

* `serve` — the composition of the three, with what each hands to the next;
* `serve_eq` — it always succeeds, and what it sends depends only on the decoded request;
* **Noninterference** `Noninterfering`: the request and the reply are independent of what the two
  buffers of the socket hold. `noninterfering_iff_of_filled` — exactly for the datagrams that
  contain all the bytes their header declares, among any sockets that include those with an earlier
  datagram of 2000 bytes.
-/

namespace CpuMonitor.Server

open CpuMonitor.Lib CpuMonitor.Network

/-! ## The path of one datagram -/

/-- What happened to one datagram.
Source: `server_worker.c`, `server_worker_update`
Kind: D -/
structure Served where
  /-- The message the receive thread builds. -/
  request : Message
  /-- The message the handler leaves. -/
  reply : Message
  /-- What the send thread hands to `sendto`. -/
  sent : Option (List UInt8 × SockaddrIn)
  journal : Journal

/-- Source: `net_connection.c`, the two thread functions; `server_worker.c`,
`server_worker_update` (one message). Kind: D -/
def serve (env : HandlerEnv) (j : Journal) (s : UdpSocket) (p : Packet) (fresh : FreshMemory) :
    Option Served := do
  let (_, s) := udpSocketReceiveMessage s (some p)
  let new ← messageCreate .allOk fresh .none receiveCapacity
  let request ← receiveMessage s new
  let (reply, j') ← workerOnMessage env j request
  let (_, sent) ← sendMessage s reply
  some ⟨request, reply, sent, j'⟩

/-- The request decoded from a datagram received into `buffer`.
Source: `net_connection.c`, `net_connection_receive_thread_func`
Kind: D -/
def requestOf (buffer : SocketBuffer) (p : Packet) (fresh : FreshMemory) : Message :=
  built (overlay buffer p.bytes) p.source (fresh.block udpSocketBufferSize)

/-- What is sent for a message.
Source: `net_connection.c`, `net_connection_send_thread_func`
Kind: D -/
def sentOf (m : Message) : Option (List UInt8 × SockaddrIn) :=
  if m.header.length.toNat ≤ maxPayload then some (m.datagram, m.header.ownerAddr) else none

/-- A message that can be sent is sent.
Source: `net_connection.c`, `net_connection_send_thread_func`
Kind: L -/
theorem sendMessage_eq {m : Message} (h : Sendable m) (s : UdpSocket) :
    ∃ s', sendMessage s m = some (s', sentOf m) := by
  unfold sentOf
  split_ifs with hlen
  · exact sendMessage_of_le hlen (h hlen)
  · exact sendMessage_of_long (Nat.not_le.mp hlen)

/-- The data buffer of a request keeps the size it was created with.
Source: `net_connection.c`, the two thread functions; `server_worker.c`, `server_worker_update`
Kind: L -/
theorem maxPayload_le_requestOf (buffer : SocketBuffer) (p : Packet) (fresh : FreshMemory) :
    maxPayload ≤ (requestOf buffer p fresh).data.length := by
  have hblock := maxPayload_le_block fresh
  rw [requestOf, built, length_data_builtData hblock]
  exact hblock

section requestOf

variable {buffer : SocketBuffer} {p : Packet} (fresh : FreshMemory)

/-- A request that does not declare too much data.
Source: `net_connection.c`, the two thread functions; `server_worker.c`, `server_worker_update`
Kind: L -/
theorem requestOf_of_le
    (h : (wireHeader (overlay buffer p.bytes)).length.toNat ≤ maxPayload) :
    requestOf buffer p fresh =
      ⟨{ wireHeader (overlay buffer p.bytes) with ownerAddr := p.source },
        slice (overlay buffer p.bytes).toList sizeofMessageHeader
          (wireHeader (overlay buffer p.bytes)).length.toNat ++
        (fresh.block udpSocketBufferSize).drop
          (wireHeader (overlay buffer p.bytes)).length.toNat⟩ :=
  if_pos h

/-- A request that declares too much: it becomes one of type `MESSAGE_TYPE_NONE`.
Source: `net_connection.c`, the two thread functions; `server_worker.c`, `server_worker_update`
Kind: L -/
theorem requestOf_of_long
    (h : maxPayload < (wireHeader (overlay buffer p.bytes)).length.toNat) :
    requestOf buffer p fresh =
      ⟨{ wireHeader (overlay buffer p.bytes) with
          type := MessageType.none.code, ownerAddr := p.source },
        fresh.block udpSocketBufferSize⟩ :=
  if_neg (Nat.not_le.mpr h)

/-- Only a request of type `MESSAGE_TYPE_NONE` declares more data than a datagram can hold.
Source: `net_connection.c`, the two thread functions; `server_worker.c`, `server_worker_update`
Kind: L -/
theorem length_requestOf_le (h : (requestOf buffer p fresh).header.type ≠ MessageType.none.code) :
    (requestOf buffer p fresh).header.length.toNat ≤ maxPayload := by
  rcases Nat.lt_or_ge maxPayload (wireHeader (overlay buffer p.bytes)).length.toNat with hlong | hle
  · rw [requestOf_of_long fresh hlong] at h
    exact absurd rfl h
  · rwa [requestOf_of_le fresh hle]

/-- The capacity of a request is the one in its datagram.
Source: `net_connection.c`, the two thread functions; `server_worker.c`, `server_worker_update`
Kind: L -/
theorem capacity_requestOf :
    (requestOf buffer p fresh).header.capacity =
      (wireHeader (overlay buffer p.bytes)).capacity := by
  rcases Nat.lt_or_ge maxPayload (wireHeader (overlay buffer p.bytes)).length.toNat with hlong | hle
  · rw [requestOf_of_long fresh hlong]
  · rw [requestOf_of_le fresh hle]

end requestOf

/-- The receive path of a datagram yields its request.
Source: `net_connection.c`, the two thread functions; `server_worker.c`, `server_worker_update`
Kind: L -/
theorem receiveMessage_recvfrom (s : UdpSocket) (p : Packet) {fresh : FreshMemory} {new : Message}
    (hblock : new.data = fresh.block udpSocketBufferSize) :
    receiveMessage (s.recvfrom p) new = some (requestOf s.incomingBuffer p fresh) := by
  have hroom : maxPayload ≤ new.data.length := hblock ▸ maxPayload_le_block fresh
  rw [receiveMessage_eq hroom, hblock, requestOf, UdpSocket.recvfrom]

/-- The three parts of the path, from the handler's result.
Source: `net_connection.c`, the two thread functions; `server_worker.c`, `server_worker_update`
Kind: L -/
theorem serve_of_worker {env : HandlerEnv} {j j' : Journal} {s : UdpSocket} {p : Packet}
    {fresh : FreshMemory} {reply : Message}
    (hworker : workerOnMessage env j (requestOf s.incomingBuffer p fresh) = some (reply, j'))
    (hsend : Sendable reply) :
    serve env j s p fresh =
      some ⟨requestOf s.incomingBuffer p fresh, reply, sentOf reply, j'⟩ := by
  obtain ⟨new, hnew, hblock⟩ := messageCreate_receive fresh
  have hreceive := receiveMessage_recvfrom s p hblock
  obtain ⟨s', hsent⟩ := sendMessage_eq hsend (s.recvfrom p)
  simp [serve, udpSocketReceiveMessage, hnew, hreceive, hworker, hsent]

/-- **One request is always served**, and what is sent depends only on the environment of the
handler and the decoded request.
Source: `net_connection.c`, the two thread functions; `server_worker.c`, `server_worker_update`
Kind: P -/
theorem serve_eq (env : HandlerEnv) (buffer : SocketBuffer) (p : Packet) (fresh : FreshMemory) :
    ∃ reply, ∀ (j : Journal) (s : UdpSocket), j.WellFormed →
      requestOf s.incomingBuffer p fresh = requestOf buffer p fresh →
      ∃ j', serve env j s p fresh =
        some ⟨requestOf buffer p fresh, reply, sentOf reply, j'⟩ ∧ j'.WellFormed := by
  obtain ⟨reply, hsend, hworker⟩ :=
    workerOnMessage_eq env (maxPayload_le_requestOf buffer p fresh)
  refine ⟨reply, fun j s hj hrequest => ?_⟩
  obtain ⟨j', hj', hwf⟩ := hworker j hj
  rw [← hrequest] at hj' ⊢
  exact ⟨j', serve_of_worker hj' hsend, hwf⟩

/-! ## Noninterference between clients -/

/-- What a message says: its type, its length and its first `length` data bytes.
Source: `socket_udp.h`, `udp_socket_t`
Kind: D -/
def view (m : Message) : UInt32 × UInt32 × List UInt8 :=
  (m.header.type, m.header.length, slice m.data 0 m.header.length.toNat)

/-- **Noninterference for a datagram**, among the sockets that a worker can have. Whatever their
receive and send buffers hold, in two runs with the same answers of the system, the request says the
same and the same is sent back.
Source: `socket_udp.h`, `udp_socket_t`: `incoming_buffer` and `outcoming_buffer` are reused
Kind: D -/
def Noninterfering (possible : UdpSocket → Prop) (p : Packet) : Prop :=
  ∀ (env : HandlerEnv) (fresh : FreshMemory) (s₁ s₂ : UdpSocket) (j₁ j₂ : Journal),
    possible s₁ → possible s₂ → j₁.WellFormed → j₂.WellFormed →
    ∃ r₁ r₂, serve env j₁ s₁ p fresh = some r₁ ∧ serve env j₂ s₂ p fresh = some r₂ ∧
      view r₁.request = view r₂.request ∧ r₁.sent = r₂.sent

/-- The length a datagram's own header declares.
Source: none: infrastructure
Kind: D -/
def declaredLength (bytes : List UInt8) : ℕ :=
  (headerOfBytes (slice bytes 0 sizeofMessageHeader)).length.toNat

/-- The datagram holds a whole header and all the data that is read for it: what the header
declares, or none if that is too much.
Source: none: infrastructure
Kind: D -/
def SelfContained (bytes : List UInt8) : Prop :=
  sizeofMessageHeader ≤ bytes.length ∧
    (maxPayload < declaredLength bytes ∨
      sizeofMessageHeader + declaredLength bytes ≤ bytes.length)

/-- The request of a self-contained datagram is independent of the buffer.
Source: `net_connection.c`, the two thread functions; `server_worker.c`, `server_worker_update`
Kind: P -/
theorem requestOf_of_selfContained {p : Packet} (h : SelfContained p.bytes)
    (b₁ b₂ : SocketBuffer) (fresh : FreshMemory) :
    requestOf b₁ p fresh = requestOf b₂ p fresh := by
  obtain ⟨hheader, hdata⟩ := h
  have hsize := sizeofMessageHeader_add_maxPayload
  have hwire : ∀ b : SocketBuffer, wireHeader (overlay b p.bytes) =
      headerOfBytes (slice p.bytes 0 sizeofMessageHeader) := fun b => wireHeader_overlay hheader
  rcases Nat.lt_or_ge maxPayload (declaredLength p.bytes) with hlong | hle
  · rw [requestOf_of_long fresh (by rwa [hwire b₁]), requestOf_of_long fresh (by rwa [hwire b₂]),
      hwire, hwire]
  · -- the payload lies in the datagram
    have hin := hdata.resolve_left (Nat.not_lt.mpr hle)
    have hslice : ∀ b : SocketBuffer, slice (overlay b p.bytes).toList sizeofMessageHeader
        (declaredLength p.bytes) = slice p.bytes sizeofMessageHeader (declaredLength p.bytes) :=
      fun b => slice_overlay hin (by omega)
    unfold declaredLength at hle hslice
    rw [requestOf_of_le fresh (by rwa [hwire b₁]), requestOf_of_le fresh (by rwa [hwire b₂]),
      hwire, hwire, hslice, hslice]

/-- A socket whose receive buffer an earlier datagram has filled with one byte.
Source: none: infrastructure
Kind: D -/
def filled (b : UInt8) : UdpSocket :=
  (udpSocketCreate ⟨0, 0, 0, 0⟩).recvfrom
    ⟨List.replicate udpSocketBufferSize b, ⟨0, 0, 0, 0⟩⟩

/-- Behind a datagram the earlier byte is read.
Source: `net_connection.c`, the two thread functions; `server_worker.c`, `server_worker_update`
Kind: L -/
theorem slice_overlay_filled (b : UInt8) {bytes : List UInt8} {i : ℕ} (hi : bytes.length ≤ i)
    (hlt : i < udpSocketBufferSize) :
    slice (overlay (filled b).incomingBuffer bytes).toList i 1 = [b] := by
  have hone : 1 ≤ udpSocketBufferSize - i := by omega
  have hfilled : slice (filled b).incomingBuffer.toList i 1 =
      slice (List.replicate udpSocketBufferSize b) i 1 :=
    slice_overlay (by rw [List.length_replicate]; omega) (by omega)
  rw [slice_overlay_stale hi, hfilled, slice, List.drop_replicate, List.take_replicate,
    Nat.min_eq_left hone]
  rfl

/-- In a datagram shorter than a header the highest byte of the capacity is an earlier one.
Source: `net_connection.c`, the two thread functions; `server_worker.c`, `server_worker_update`
Kind: L -/
theorem capacity_overlay_filled (b : UInt8) {bytes : List UInt8}
    (hshort : bytes.length < sizeofMessageHeader) :
    (wireHeader (overlay (filled b).incomingBuffer bytes)).capacity.toNat / 256 ^ 3 =
      b.toNat := by
  have hword : slice (slice (overlay (filled b).incomingBuffer bytes).toList 0
      sizeofMessageHeader) 24 4 =
      slice (overlay (filled b).incomingBuffer bytes).toList 24 3 ++ [b] := by
    rw [slice_slice (by decide), slice_add _ _ 3 1]
    congr 1
    exact slice_overlay_filled b (Nat.le_of_lt_succ hshort) (by decide)
  have hlow : (slice (overlay (filled b).incomingBuffer bytes).toList 24 3).length = 3 :=
    length_slice (by rw [List.Vector.toList_length]; decide)
  have hlt := leValue_lt (slice (overlay (filled b).incomingBuffer bytes).toList 24 3)
  have hb := b.toNat_lt
  rw [wireHeader, headerOfBytes, hword, leValue_append, hlow]
  rw [hlow] at hlt
  have hsingle : leValue [b] = b.toNat := by simp [leValue]
  rw [hsingle, UInt32.toNat_ofNat_of_lt' (by norm_num at *; omega)]
  norm_num at *
  omega

/-- When every call succeeds and the capacity of a request is enough for every text, a datagram
with the same capacity is sent back.
Source: `net_connection.c`, the two thread functions; `server_worker.c`, `server_worker_update`
Kind: L -/
theorem serve_keeps_capacity {env : HandlerEnv} (hok : env.AllOk) {j : Journal}
    (hj : j.WellFormed) (s : UdpSocket) (p : Packet) (fresh : FreshMemory)
    (hcap : textBufferSize ≤ (requestOf s.incomingBuffer p fresh).header.capacity.toNat) :
    ∃ r, serve env j s p fresh = some r ∧ r.request = requestOf s.incomingBuffer p fresh ∧
      r.sent = some (r.reply.datagram, r.reply.header.ownerAddr) ∧
      r.reply.header.capacity = r.request.header.capacity := by
  have hdata := maxPayload_le_requestOf s.incomingBuffer p fresh
  have hsize := textBufferSize_le_maxPayload
  obtain ⟨reply, hcases, hworker⟩ := workerOnMessage_of_allOk hok hdata
  obtain ⟨j', hj', -⟩ := hworker j hj
  have hlen : reply.header.length.toNat ≤ maxPayload := by
    rcases hcases with ⟨hnone, -, rfl⟩ | ⟨type, response, rfl⟩
    · exact length_requestOf_le fresh hnone
    · rw [toNat_length_withText response.2]
      exact le_trans response.2 hsize
  have hsend : Sendable reply := by
    rcases hcases with ⟨-, -, rfl⟩ | ⟨type, response, rfl⟩
    · exact fun h => le_trans h hdata
    · exact fun _ => length_le_data_withText response.2
  refine ⟨_, serve_of_worker hj' hsend, rfl, if_pos hlen, ?_⟩
  rcases hcases with ⟨-, -, rfl⟩ | ⟨type, response, rfl⟩
  · rfl
  · exact capacity_withText (le_trans response.2 hcap)

/-- Equal datagrams have equal headers.
Source: `net_connection.c`, the two thread functions; `server_worker.c`, `server_worker_update`
Kind: L -/
theorem header_eq_of_datagram_eq {m₁ m₂ : Message} (h : m₁.datagram = m₂.datagram) :
    m₁.header = m₂.header := by
  have hbytes : m₁.header.bytes = m₂.header.bytes :=
    List.append_inj_left h (by rw [MessageHeader.length_bytes, MessageHeader.length_bytes])
  rw [← headerOfBytes_bytes m₁.header, hbytes, headerOfBytes_bytes]

/-- An environment in which every call succeeds.
Source: none: infrastructure
Kind: D -/
def quietEnv : HandlerEnv where
  timeStr := ⟨[], by simp⟩
  timeStr_lt := by decide
  usage := fun _ => 0
  snprintfRecord := true
  snprintfReply := true
  realloc := true
  grown := fun _ => 0
  journalCalls := .allOk

/-- The calls of the library succeed.
Source: none: infrastructure
Kind: L -/
theorem quietEnv_allOk : quietEnv.AllOk := ⟨rfl, rfl, rfl⟩

/-- A block of zeros, as `malloc` may return it.
Source: none: infrastructure
Kind: D -/
def zeroMemory : FreshMemory := ⟨⟨0, 0, 0, 0⟩, fun _ => 0⟩

/-- There is a well-formed journal.
Source: none: infrastructure
Kind: L -/
theorem exists_wellFormed : ∃ j : Journal, j.WellFormed := by
  obtain ⟨r, -, hholds⟩ := @journalCreate_holds 9 (by decide) (by norm_num)
  exact ⟨⟨9, r⟩, by norm_num, [], hholds⟩

section noninterfering

variable {possible : UdpSocket → Prop} {p : Packet}

/-- **A self-contained datagram does not interfere**, whatever the two buffers hold.
Source: `net_connection.c`, the two thread functions; `server_worker.c`, `server_worker_update`
Kind: P -/
theorem noninterfering_of_selfContained (h : SelfContained p.bytes) :
    Noninterfering possible p := by
  intro env fresh s₁ s₂ j₁ j₂ _ _ hj₁ hj₂
  obtain ⟨reply, hreply⟩ := serve_eq env s₁.incomingBuffer p fresh
  obtain ⟨j₁', hr₁, -⟩ := hreply j₁ s₁ hj₁ rfl
  obtain ⟨j₂', hr₂, -⟩ := hreply j₂ s₂ hj₂ (requestOf_of_selfContained h _ _ _)
  exact ⟨_, _, hr₁, hr₂, rfl, rfl⟩

/-- Noninterference between two buffers filled with different bytes.
Source: `net_connection.c`, the two thread functions; `server_worker.c`, `server_worker_update`
Kind: L -/
theorem Noninterfering.filled (h : Noninterfering possible p)
    (hfilled : ∀ b, possible (Server.filled b)) {j : Journal} (hj : j.WellFormed) :
    ∃ r₁ r₂, serve quietEnv j (Server.filled 1) p zeroMemory = some r₁ ∧
      serve quietEnv j (Server.filled 2) p zeroMemory = some r₂ ∧
      view r₁.request = view r₂.request ∧ r₁.sent = r₂.sent :=
  h quietEnv zeroMemory (Server.filled 1) (Server.filled 2) j j (hfilled 1) (hfilled 2) hj hj

/-- **A datagram shorter than a header interferes**: the capacity of its reply is an earlier
datagram's.
Source: `net_connection.c`, the two thread functions; `server_worker.c`, `server_worker_update`
Kind: P -/
theorem not_noninterfering_of_short (hfilled : ∀ b, possible (filled b))
    (h : p.bytes.length < sizeofMessageHeader) : ¬ Noninterfering possible p := by
  intro hni
  obtain ⟨j, hj⟩ := exists_wellFormed
  have hcap₁ := capacity_overlay_filled 1 h
  have hcap₂ := capacity_overlay_filled 2 h
  have hserve : ∀ b : UInt8, 0 < b.toNat → ∃ r, serve quietEnv j (filled b) p zeroMemory = some r ∧
      r.sent = some (r.reply.datagram, r.reply.header.ownerAddr) ∧
      r.reply.header.capacity =
        (wireHeader (overlay (filled b).incomingBuffer p.bytes)).capacity := by
    intro b hb
    have hcap := capacity_overlay_filled b h
    obtain ⟨r, hr, hrequest, hsent, hcapacity⟩ :=
      serve_keeps_capacity quietEnv_allOk hj (filled b) p zeroMemory (by
        rw [capacity_requestOf]
        norm_num [textBufferSize] at *
        omega)
    exact ⟨r, hr, hsent, by rw [hcapacity, hrequest, capacity_requestOf]⟩
  obtain ⟨r₁, hr₁, hsent₁, hreply₁⟩ := hserve 1 (by decide)
  obtain ⟨r₂, hr₂, hsent₂, hreply₂⟩ := hserve 2 (by decide)
  obtain ⟨s₁, s₂, hs₁, hs₂, -, hsent⟩ := hni.filled hfilled hj
  obtain rfl := Option.some.inj (hs₁.symm.trans hr₁)
  obtain rfl := Option.some.inj (hs₂.symm.trans hr₂)
  rw [hsent₁, hsent₂, Option.some.injEq, Prod.mk.injEq] at hsent
  have hheader := header_eq_of_datagram_eq hsent.1
  rw [← hreply₁, hheader, hreply₂, hcap₂] at hcap₁
  exact absurd hcap₁ (by decide)

/-- **A datagram that declares more data than it holds interferes**: the rest of its data is an
earlier datagram's.
Source: `net_connection.c`, the two thread functions; `server_worker.c`, `server_worker_update`
Kind: P -/
theorem not_noninterfering_of_missing (hfilled : ∀ b, possible (filled b))
    (hheader : sizeofMessageHeader ≤ p.bytes.length) (hlen : declaredLength p.bytes ≤ maxPayload)
    (hmissing : p.bytes.length < sizeofMessageHeader + declaredLength p.bytes) :
    ¬ Noninterfering possible p := by
  intro hni
  obtain ⟨j, hj⟩ := exists_wellFormed
  have hsize := sizeofMessageHeader_add_maxPayload
  -- the data bytes of the request, in a buffer filled with `b`
  have hview : ∀ b : UInt8, (view (requestOf (filled b).incomingBuffer p zeroMemory)).2.2 =
      slice (overlay (filled b).incomingBuffer p.bytes).toList sizeofMessageHeader
        (declaredLength p.bytes) := by
    intro b
    have hwire : wireHeader (overlay (filled b).incomingBuffer p.bytes) =
        headerOfBytes (slice p.bytes 0 sizeofMessageHeader) := wireHeader_overlay hheader
    have hin : sizeofMessageHeader + declaredLength p.bytes ≤
        (overlay (filled b).incomingBuffer p.bytes).toList.length := by
      rw [List.Vector.toList_length]
      omega
    rw [requestOf_of_le zeroMemory (by rwa [hwire]), hwire]
    exact slice_append_self (length_slice hin)
  have hbyte : ∀ b : UInt8, slice (view (requestOf (filled b).incomingBuffer p zeroMemory)).2.2
      (p.bytes.length - sizeofMessageHeader) 1 = [b] := by
    intro b
    rw [hview, slice_slice (by omega), Nat.add_sub_cancel' hheader]
    exact slice_overlay_filled b le_rfl (by omega)
  have hrequest : ∀ b r, serve quietEnv j (filled b) p zeroMemory = some r →
      r.request = requestOf (filled b).incomingBuffer p zeroMemory := by
    intro b r hr
    obtain ⟨reply, hreply⟩ := serve_eq quietEnv (filled b).incomingBuffer p zeroMemory
    obtain ⟨j', hj', -⟩ := hreply j (filled b) hj rfl
    rw [← Option.some.inj (hj'.symm.trans hr)]
  obtain ⟨r₁, r₂, hr₁, hr₂, hsame, -⟩ := hni.filled hfilled hj
  rw [hrequest 1 r₁ hr₁, hrequest 2 r₂ hr₂] at hsame
  have hbytes := hbyte 1
  rw [hsame, hbyte 2] at hbytes
  exact absurd hbytes (by decide)

/-- **Which datagrams interfere**, among any sockets that include those with an earlier datagram of
2000 bytes: those that do not hold a whole header and, unless that declares more than a datagram can
hold, all the data it declares.
Source: `net_connection.c`, `net_connection_read_header`, `net_connection_read_data`: neither looks
at the number of bytes received
Kind: P -/
theorem noninterfering_iff_of_filled (hfilled : ∀ b, possible (filled b)) :
    Noninterfering possible p ↔ SelfContained p.bytes := by
  constructor
  · intro hni
    by_contra hnot
    rcases Nat.lt_or_ge p.bytes.length sizeofMessageHeader with hshort | hheader
    · exact not_noninterfering_of_short hfilled hshort hni
    · have hdata : ¬ (maxPayload < declaredLength p.bytes ∨
          sizeofMessageHeader + declaredLength p.bytes ≤ p.bytes.length) :=
        fun h => hnot ⟨hheader, h⟩
      rw [not_or, Nat.not_lt, Nat.not_le] at hdata
      exact not_noninterfering_of_missing hfilled hheader hdata.1 hdata.2 hni
  · exact noninterfering_of_selfContained

end noninterfering

end CpuMonitor.Server
