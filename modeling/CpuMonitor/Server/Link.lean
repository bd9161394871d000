import CpuMonitor.Server.ReplyAddress

/-!
# What a connection takes in and what it gives out

A connection is used by the server's workers and by the clients. This module says what its two
threads do whoever uses it: for a condition `A` on the datagrams that arrive and a condition `P` on
addresses, such that the source of a datagram that meets `A` meets `P`, every message taken from the
incoming queue was decoded from a datagram that meets `A`, everything handed to `sendto` goes to an
address that meets `P`, and it is the datagram of the message it was made from.

* `Conn.Encoding` — the send buffer holds the datagram of the message that the send thread is about
  to send; only the send thread writes to it;
* `Conn.Link A P` — the invariant, kept by every step (`Conn.Link.moved`). It needs no condition on
  the order of the two threads' accesses to `incoming_addr`: whichever of them wrote the field last,
  the address in it meets `P`.
-/

namespace CpuMonitor.Server

open CpuMonitor.Lib CpuMonitor.Network

variable {σ ε : Type} {handler : Handler ε σ}

/-! ## The send buffer -/

/-- The payload of the message fits in a datagram and lies in the message's buffer.
Source: none: infrastructure
Kind: D -/
structure Fits (m : Message) : Prop where
  inDatagram : m.header.length.toNat ≤ maxPayload
  inBlock : m.header.length.toNat ≤ m.data.length

/-- A message whose data could be written fits.
Source: `net_connection.c`, the two thread functions
Kind: L -/
theorem fits_of_netConnectionWriteData {s s' : UdpSocket} {m : Message}
    (h : netConnectionWriteData s m = some (.success, s')) : Fits m := by
  unfold netConnectionWriteData at h
  split_ifs at h with hpos hlong
  · cases h
  · obtain ⟨bytes, hload, -⟩ := Option.bind_eq_some_iff.mp h
    have hle := (length_of_load hload).1
    exact ⟨Nat.not_lt.mp hlong, by omega⟩
  · have hzero : m.header.length.toNat = 0 := by omega
    exact ⟨hzero ▸ Nat.zero_le _, hzero ▸ Nat.zero_le _⟩

/-- After the two writes the send buffer starts with the datagram.
Source: `net_connection.c`, the two thread functions
Kind: L -/
theorem slice_of_write {s s₁ s₂ : UdpSocket} {m : Message}
    (hheader : netConnectionWriteHeader s m.header = some s₁)
    (hdata : netConnectionWriteData s₁ m = some (.success, s₂)) :
    slice s₂.outcomingBuffer.toList 0 (sizeofMessageHeader + m.header.length.toNat) =
      m.datagram := by
  have hfits := fits_of_netConnectionWriteData hdata
  obtain ⟨b₁, hwrite₁, hslice⟩ := netConnectionWriteHeader_eq s m.header
  obtain rfl := Option.some.inj (hwrite₁.symm.trans hheader)
  obtain ⟨b₂, hwrite₂, hbytes⟩ := @netConnectionWriteData_of_le
    { s with outcomingBuffer := b₁ } m hslice hfits.inDatagram hfits.inBlock
  obtain ⟨-, rfl⟩ := Prod.mk.inj (Option.some.inj (hwrite₂.symm.trans hdata))
  exact hbytes

/-- The send buffer holds the datagram of the message to be sent.
Source: none: infrastructure
Kind: D -/
def Conn.Encoding {Q : Type} (s : Conn Q σ) : Prop :=
  ∀ t, s.send = .encoded t ∨ s.send = .addressed t → Fits t.body ∧
    slice s.socket.outcomingBuffer.toList 0 (sizeofMessageHeader + t.body.header.length.toNat) =
      t.body.datagram

/-- What was handed to `sendto` is the datagram of a message that fits.
Source: none: infrastructure
Kind: D -/
structure Sent.Faithful (x : Sent) : Prop where
  fits : Fits x.message.body
  bytes : x.bytes = x.message.body.datagram

/-! ## The invariant -/

/-- The datagrams received meet `A`, every address in use meets `P`.
Source: none: infrastructure
Kind: D -/
structure Conn.Link (A : Packet → Prop) (P : SockaddrIn → Prop) (s : Conn (Fifo Tagged) σ) :
    Prop where
  /-- The datagrams received, each laid over what the buffer held before. -/
  receipts : ∀ r ∈ s.receipts, A r.packet ∧
    ∃ buffer : SocketBuffer, r.buffer = overlay buffer r.packet.bytes
  decoding : s.Decoding
  requests : ∀ t ∈ s.requests, s.Origin t.id t.body
  /-- An address that a thread has still to read. -/
  field : s.recv.pending = true ∨ s.send.pending = true → P s.socket.incomingAddr
  recvOwner : ∀ t, s.recv = .owned t ∨ s.recv = .built t → P t.body.header.ownerAddr
  requestOwner : ∀ t ∈ s.requests, P t.body.header.ownerAddr
  replyOwner : ∀ t ∈ s.replies, P t.body.header.ownerAddr
  encoding : s.Encoding
  sent : ∀ x ∈ s.sent, P x.dest ∧ x.Faithful

section step

variable {A : Packet → Prop} {P : SockaddrIn → Prop} {s s' : Conn (Fifo Tagged) σ} {l : Label ε}

/-- A new connection has received nothing.
Source: `net_connection.c`, the two thread functions
Kind: L -/
theorem Conn.Link.init {socket : UdpSocket} {c₁ c₂ : ℕ} {store : σ} :
    (Conn.init socket ⟨c₁, []⟩ ⟨c₂, []⟩ store).Link A P where
  receipts := fun _ hr => absurd hr List.not_mem_nil
  decoding := trivial
  requests := fun _ ht => absurd ht List.not_mem_nil
  field := by rintro (h | h) <;> cases h
  recvOwner := by rintro t (h | h) <;> cases h
  requestOwner := fun _ ht => absurd ht List.not_mem_nil
  replyOwner := fun _ ht => absurd ht List.not_mem_nil
  encoding := by rintro t (h | h) <;> cases h
  sent := fun _ hx => absurd hx List.not_mem_nil

/-- The receipts.
Source: `net_connection.c`, the two thread functions
Kind: L -/
theorem Conn.Link.receipts_moved (h : s.Link A P) (hm : Moved fifoOps handler s l s')
    (hA : ∀ packet, l = .recvfrom packet → A packet) :
    ∀ r ∈ s'.receipts, A r.packet ∧
      ∃ buffer : SocketBuffer, r.buffer = overlay buffer r.packet.bytes := by
  cases hm with
  | @recvfrom packet pc =>
      intro r hr
      rcases List.mem_append.mp hr with hr | hr
      · exact h.receipts r hr
      · rw [List.mem_singleton.mp hr]
        exact ⟨hA packet rfl, s.socket.incomingBuffer, rfl⟩
  | _ => exact h.receipts

/-- The field `incoming_addr`: whoever writes it writes an address that meets `P`.
Source: `net_connection.c`, the two thread functions
Kind: P -/
theorem Conn.Link.field_moved (h : s.Link A P) (hm : Moved fifoOps handler s l s')
    (hP : ∀ packet, l = .recvfrom packet → P packet.source) :
    s'.recv.pending = true ∨ s'.send.pending = true → P s'.socket.incomingAddr := by
  cases hm with
  | @recvfrom packet pc => exact fun _ => hP packet rfl
  | createFailed pc create =>
      rintro (hrecv | hsend)
      · cases hrecv
      · exact h.field (.inr hsend)
  | createHeader pc create => exact fun _ => h.field (.inl (by rw [pc]; rfl))
  | readOwner pc => exact fun _ => h.field (.inl (by rw [pc]; rfl))
  | readData pc data =>
      rintro (hrecv | hsend)
      · cases hrecv
      · exact h.field (.inr hsend)
  | enqueueIncoming pc enqueue =>
      rintro (hrecv | hsend)
      · cases hrecv
      · exact h.field (.inr hsend)
  | sendDequeue pc dequeue =>
      rintro (hrecv | hsend)
      · exact h.field (.inl hrecv)
      · cases hsend
  | reject pc header data failed =>
      have haddr := (netConnectionWriteHeader_frame header).1
      rw [(netConnectionWriteData_frame data).1.trans haddr]
      rintro (hrecv | hsend)
      · exact h.field (.inl hrecv)
      · cases hsend
  | encode pc header data =>
      have haddr := (netConnectionWriteHeader_frame header).1
      rw [(netConnectionWriteData_frame data).1.trans haddr]
      rintro (hrecv | hsend)
      · exact h.field (.inl hrecv)
      · cases hsend
  | @address t pc =>
      intro _
      have hreply : t ∈ s.replies := by simp [Conn.replies, Conn.waiting, SendPc.hand, pc]
      exact h.replyOwner t hreply
  | sendto pc send =>
      rintro (hrecv | hsend)
      · exact h.field (.inl hrecv)
      · cases hsend
  | _ => exact h.field

/-- The address of the message in the receive thread's hands.
Source: `net_connection.c`, the two thread functions
Kind: L -/
theorem Conn.Link.recvOwner_moved (h : s.Link A P) (hm : Moved fifoOps handler s l s') :
    ∀ t, s'.recv = .owned t ∨ s'.recv = .built t → P t.body.header.ownerAddr := by
  cases hm with
  | recvfrom pc => rintro t (ht | ht) <;> cases ht
  | createFailed pc create => rintro t (ht | ht) <;> cases ht
  | createHeader pc create => rintro t (ht | ht) <;> cases ht
  | readOwner pc =>
      rintro t (ht | ht)
      · cases ht
        exact h.field (.inl (by rw [pc]; rfl))
      · cases ht
  | readData pc data =>
      rintro t (ht | ht)
      · cases ht
      · cases ht
        show P (Message.header _).ownerAddr
        rw [ownerAddr_of_receiveData data]
        exact h.recvOwner _ (.inl pc)
  | enqueueIncoming pc enqueue => rintro t (ht | ht) <;> cases ht
  | _ => exact h.recvOwner

/-- The send buffer.
Source: `net_connection.c`, the two thread functions
Kind: L -/
theorem Conn.Link.encoding_moved (h : s.Link A P) (hm : Moved fifoOps handler s l s') :
    s'.Encoding := by
  cases hm with
  | sendDequeue pc dequeue => rintro t (ht | ht) <;> cases ht
  | reject pc header data failed => rintro t (ht | ht) <;> cases ht
  | encode pc header data =>
      rintro t (ht | ht)
      · cases ht
        exact ⟨fits_of_netConnectionWriteData data, slice_of_write header data⟩
      · cases ht
  | @address t₀ pc =>
      rintro t (ht | ht)
      · cases ht
      · cases ht
        exact h.encoding t₀ (.inl pc)
  | sendto pc send => rintro t (ht | ht) <;> cases ht
  | _ => exact h.encoding

/-- What is handed to `sendto`.
Source: `net_connection.c`, the two thread functions
Kind: P -/
theorem Conn.Link.sent_moved (h : s.Link A P) (hm : Moved fifoOps handler s l s') :
    ∀ x ∈ s'.sent, P x.dest ∧ x.Faithful := by
  cases hm with
  | @sendto t bytes dest pc send =>
      intro x hx
      rcases List.mem_append.mp hx with hx | hx
      · exact h.sent x hx
      · obtain ⟨hfits, hslice⟩ := h.encoding t (.inr pc)
        have heq := (udpSocketSend_eq hfits.inDatagram hslice).symm.trans send
        obtain ⟨rfl, rfl⟩ := Prod.mk.inj (Option.some.inj heq)
        rw [List.mem_singleton.mp hx]
        exact ⟨h.field (.inr (by rw [pc]; rfl)), hfits, rfl⟩
  | _ => exact h.sent

/-- **Every step keeps the link**, as long as the datagrams that arrive meet `A`, for a worker
function that does not touch the address.
Source: `net_connection.c`, the two thread functions
Kind: P -/
theorem Conn.Link.moved
    (hkeeps : ∀ env store m m' store', handler env store m = some (m', store') →
      m'.header.ownerAddr = m.header.ownerAddr)
    (hsource : ∀ packet, A packet → P packet.source) (h : s.Link A P)
    (hm : Moved fifoOps handler s l s') (hA : ∀ packet, l = .recvfrom packet → A packet) :
    s'.Link A P := by
  have hflow := hm.flowed
  have hpre := hflow.receipts_isPrefix
  refine ⟨h.receipts_moved hm hA, h.decoding.moved hm, ?_,
    h.field_moved hm fun packet hl => hsource packet (hA packet hl), h.recvOwner_moved hm, ?_, ?_,
    h.encoding_moved hm, h.sent_moved hm⟩
  · apply hflow.forall_requests fun t ht => (h.requests t ht).mono hpre
    intro t pc
    have hbuilt := h.decoding
    simp only [Conn.Decoding, pc] at hbuilt
    exact hbuilt.mono hpre
  · apply hflow.forall_requests h.requestOwner
    intro t pc
    exact h.recvOwner t (.inr pc)
  · apply hflow.forall_replies h.replyOwner
    intro env t m store ht call
    show P m.header.ownerAddr
    rw [hkeeps env s.store t.body m store call]
    exact h.requestOwner t ht

end step

/-! ## What a message on the way says -/

/-- A message taken in was decoded from a datagram that meets `A`.
Source: `net_connection.c`, the two thread functions
Kind: L -/
theorem Conn.Link.built_of_origin {A : Packet → Prop} {P : SockaddrIn → Prop}
    {s : Conn (Fifo Tagged) σ} (h : s.Link A P) {id : ℕ} {m : Message} (ho : s.Origin id m) :
    ∃ (packet : Packet) (buffer : SocketBuffer) (owner : SockaddrIn) (fresh : FreshMemory),
      A packet ∧
        m = built (overlay buffer packet.bytes) owner (fresh.block udpSocketBufferSize) := by
  obtain ⟨r, hr, owner, fresh, rfl⟩ := ho
  obtain ⟨hA, buffer, hbuffer⟩ := h.receipts r (List.mem_of_getElem? hr)
  exact ⟨r.packet, buffer, owner, fresh, hA, by rw [hbuffer]⟩

end CpuMonitor.Server
