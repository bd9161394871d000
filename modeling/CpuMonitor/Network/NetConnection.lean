import CpuMonitor.Network.Message
import CpuMonitor.Network.MessageQueue

/-!
# A connection's wire format: the receive and the send path

`network/socket_udp.c` and the `static` functions of `network/net_connection.c`: a datagram is
received into a buffer that is reused from one datagram to the next, a message is decoded from that
buffer, and a message is encoded into a second reused buffer and sent from there.

* **The code's model**: `udpSocketReceiveMessage`, `netConnectionReadHeader`,
  `netConnectionReadData`, `netConnectionWriteHeader`, `netConnectionWriteData`, `udpSocketSend`,
  and the two thread bodies without their queues, `receiveMessage` and `sendMessage`.
* **What they compute**: `built`, the message decoded from a buffer (`receiveMessage_eq`), and
  `datagram`, the bytes of a message (`sendMessage_of_le`, `sendMessage_of_long`).
* **The round trip** `wire_roundtrip`: encoding and decoding are inverse, over all three reused
  buffers.
* **The queues**: `netConnectionAddToQueue`, `netConnectionSend`, `netConnectionReceiveNonblocking`,
  how the rest of the program puts messages into a connection and gets them out.
-/

namespace CpuMonitor.Network

open CpuMonitor.Lib

/-! ## The socket -/

/-- `UDP_SOCKET_BUFFER_SIZE`.
Source: `socket_udp.h`, `udp_socket_t`
Kind: D -/
def udpSocketBufferSize : ℕ := 2000

/-- `UDP_SOCKET_BUFFER_SIZE - sizeof(message_header_t)`.
Source: `net_connection.c`, `net_connection_read_data`
Kind: D -/
def maxPayload : ℕ := udpSocketBufferSize - sizeofMessageHeader

/-- One of the two arrays of a socket.
Source: `socket_udp.h`, `udp_socket_t`
Kind: D -/
abbrev SocketBuffer : Type := List.Vector UInt8 udpSocketBufferSize

/-- The part of the socket the two threads of a connection use: the address field is shared by
both.
Source: `socket_udp.h`, `udp_socket_t`
Kind: D -/
structure UdpSocket where
  incomingAddr : SockaddrIn
  incomingBuffer : SocketBuffer
  outcomingBuffer : SocketBuffer

/-- Source: `socket_udp.h`, `udp_socket_status_t`. Kind: D -/
inductive UdpSocketStatus
  | success
  | errorCreateSocket
  | errorBind
  | errorReceive
  | errorSend
  | errorMemory
  deriving DecidableEq, Repr

/-- Source: `net_connection.h`, `net_connection_status_t`. Kind: D -/
inductive NetConnectionStatus
  | success
  | errorNullPointer
  | errorSocket
  | errorQueue
  | errorThread
  | errorMessageFormat
  deriving DecidableEq, Repr

/-- A new socket: both buffers are cleared, the address field is left as `malloc` returned it.
Source: `socket_udp.c`, `udp_socket_create`
Kind: D -/
def udpSocketCreate (addr : SockaddrIn) : UdpSocket :=
  ⟨addr, List.Vector.replicate _ 0, List.Vector.replicate _ 0⟩

/-- A datagram and its source address.
Source: `socket_udp.c`, `udp_socket_receive_message`
Kind: D -/
structure Packet where
  bytes : List UInt8
  source : SockaddrIn
  deriving DecidableEq

/-- What `recvfrom` does with a datagram: its bytes go to the start of the buffer (cut at the
buffer's size, the rest of the buffer keeps the bytes of earlier datagrams), its source to the
address field.
Source: `socket_udp.c`, `udp_socket_receive_message`
Kind: D -/
def UdpSocket.recvfrom (s : UdpSocket) (p : Packet) : UdpSocket :=
  { s with incomingAddr := p.source, incomingBuffer := overlay s.incomingBuffer p.bytes }

/-- `none` is a `recvfrom` that failed. The number of bytes received is not kept.
Source: `socket_udp.c`, `udp_socket_receive_message` (without a callback)
Kind: D -/
def udpSocketReceiveMessage (s : UdpSocket) (result : Option Packet) :
    UdpSocketStatus × UdpSocket :=
  match result with
  | none => (.errorReceive, s)
  | some p => (.success, s.recvfrom p)

/-- The bytes handed to `sendto` and the address they go to.
Source: `socket_udp.c`, `udp_socket_send`
Kind: D -/
def udpSocketSend (s : UdpSocket) (dataLength : ℕ) : Option (List UInt8 × SockaddrIn) := do
  let bytes ← load s.outcomingBuffer.toList 0 dataLength
  some (bytes, s.incomingAddr)

/-! ## Decoding -/

/-- Source: `net_connection.c`, `net_connection_read_header`. Kind: D
Fidelity: exact (non-null pointers; the status is then always success, and the failure branch of
the caller is never taken) -/
def netConnectionReadHeader (s : UdpSocket) : Option MessageHeader := do
  let bytes ← load s.incomingBuffer.toList 0 sizeofMessageHeader
  some (headerOfBytes bytes)

/-- Source: `net_connection.c`, `net_connection_read_data`. Kind: D
Fidelity: exact (non-null pointers) -/
def netConnectionReadData (s : UdpSocket) (m : Message) :
    Option (NetConnectionStatus × Message) :=
  if m.header.length.toNat > 0 then
    if m.header.length.toNat > maxPayload then some (.errorMessageFormat, m)
    else do
      let bytes ← load s.incomingBuffer.toList sizeofMessageHeader m.header.length.toNat
      let data ← store m.data 0 bytes
      some (.success, { m with data := data })
  else some (.success, m)

/-- The header of a new message is read from the socket's buffer.
Source: `net_connection.c`, `net_connection_receive_thread_func`
Kind: D -/
def receiveHeader (s : UdpSocket) (m : Message) : Option Message := do
  let header ← netConnectionReadHeader s
  some { m with header := header }

/-- `received_message->header.owner_addr = connection->socket->incoming_addr`.
Source: `net_connection.c`, `net_connection_receive_thread_func`
Kind: D -/
def receiveOwner (s : UdpSocket) (m : Message) : Message :=
  { m with header := { m.header with ownerAddr := s.incomingAddr } }

/-- The data is read; if that fails the message becomes one of type `MESSAGE_TYPE_NONE`.
Source: `net_connection.c`, `net_connection_receive_thread_func`
Kind: D -/
def receiveData (s : UdpSocket) (m : Message) : Option Message := do
  let (status, m) ← netConnectionReadData s m
  if status ≠ .success then
    some { m with header := { m.header with type := MessageType.none.code } }
  else some m

/-- What the receive thread makes of a new message `m` between a successful receipt and the
enqueue, undisturbed by the send thread.
Source: `net_connection.c`, `net_connection_receive_thread_func`
Kind: D -/
def receiveMessage (s : UdpSocket) (m : Message) : Option Message := do
  let m ← receiveHeader s m
  receiveData s (receiveOwner s m)

/-! ## Encoding -/

/-- Source: `net_connection.c`, `net_connection_write_header`. Kind: D
Fidelity: exact (non-null pointers; the status is then always success) -/
def netConnectionWriteHeader (s : UdpSocket) (h : MessageHeader) : Option UdpSocket := do
  let buffer ← storeVec s.outcomingBuffer 0 h.bytes
  some { s with outcomingBuffer := buffer }

/-- Source: `net_connection.c`, `net_connection_write_data`. Kind: D
Fidelity: exact (non-null pointers) -/
def netConnectionWriteData (s : UdpSocket) (m : Message) :
    Option (NetConnectionStatus × UdpSocket) :=
  if m.header.length.toNat > 0 then
    if m.header.length.toNat > maxPayload then some (.errorMessageFormat, s)
    else do
      let bytes ← load m.data 0 m.header.length.toNat
      let buffer ← storeVec s.outcomingBuffer sizeofMessageHeader bytes
      some (.success, { s with outcomingBuffer := buffer })
  else some (.success, s)

/-- `connection->socket->incoming_addr = sending_message->header.owner_addr`.
Source: `net_connection.c`, `net_connection_send_thread_func`
Kind: D -/
def sendOwner (s : UdpSocket) (m : Message) : UdpSocket :=
  { s with incomingAddr := m.header.ownerAddr }

/-- What the send thread does with a dequeued message, undisturbed by the receive thread: the
socket afterwards and what was handed to `sendto`, if anything.
Source: `net_connection.c`, `net_connection_send_thread_func`
Kind: D -/
def sendMessage (s : UdpSocket) (m : Message) :
    Option (UdpSocket × Option (List UInt8 × SockaddrIn)) := do
  let s ← netConnectionWriteHeader s m.header
  let (status, s) ← netConnectionWriteData s m
  if status ≠ .success then some (s, none)
  else
    let s := sendOwner s m
    let sent ← udpSocketSend s (m.header.length.toNat + sizeofMessageHeader)
    some (s, some sent)

/-! ## What the receive path computes -/

/-- The header in a receive buffer: its first 28 bytes, whatever datagram they come from.
Source: `net_connection.c`, `net_connection_read_header`
Kind: D -/
def wireHeader (buffer : SocketBuffer) : MessageHeader :=
  headerOfBytes (slice buffer.toList 0 sizeofMessageHeader)

/-- A message with the header `header` whose data is read from `buffer` over `data`.
Source: `net_connection.c`, `net_connection_read_data`
Kind: D -/
def builtData (buffer : SocketBuffer) (header : MessageHeader) (data : List UInt8) : Message :=
  if header.length.toNat ≤ maxPayload then
    ⟨header, slice buffer.toList sizeofMessageHeader header.length.toNat ++
      data.drop header.length.toNat⟩
  else ⟨{ header with type := MessageType.none.code }, data⟩

/-- The message decoded from a receive buffer: `data` is what its data buffer held before.
Source: `net_connection.c`, `net_connection_receive_thread_func`
Kind: D -/
def built (buffer : SocketBuffer) (owner : SockaddrIn) (data : List UInt8) : Message :=
  builtData buffer { wireHeader buffer with ownerAddr := owner } data

/-- The capacity the receive thread creates its messages with.
Source: `net_connection.c`, `net_connection_receive_thread_func`
Kind: D -/
def receiveCapacity : UInt32 := UInt32.ofNat udpSocketBufferSize

/-- A message as the receive thread creates it.
Source: `net_connection.c`, `net_connection_receive_thread_func`
Kind: L -/
theorem messageCreate_receive (fresh : FreshMemory) :
    ∃ m, messageCreate .allOk fresh .none receiveCapacity = some m ∧
      m.data = fresh.block udpSocketBufferSize := by
  have hcap : receiveCapacity.toNat = udpSocketBufferSize := by decide
  have hle : ¬ udpSocketBufferSize > uint32Max - sizeofMessageHeader := by decide
  simp [messageCreate, MessageCreateCalls.allOk, hcap, hle]

/-- The data of a message for a datagram is a block of the size of the socket's buffer.
Source: `net_connection.c`, `net_connection_receive_thread_func`
Kind: L -/
theorem data_of_messageCreate {calls : MessageCreateCalls} {fresh : FreshMemory} {new : Message}
    (h : messageCreate calls fresh .none receiveCapacity = some new) :
    new.data = fresh.block udpSocketBufferSize := by
  have hcap : receiveCapacity.toNat = udpSocketBufferSize := by decide
  rw [(messageCreate_eq_some h).2, hcap]

/-- It has room for every payload the receive thread accepts.
Source: `net_connection.c`, `net_connection_read_data`
Kind: L -/
theorem maxPayload_le_block (fresh : FreshMemory) :
    maxPayload ≤ (fresh.block udpSocketBufferSize).length := by
  rw [FreshMemory.length_block]
  decide

/-- A header and the longest payload fill the buffer.
Source: `net_connection.c`, `net_connection_read_header`
Kind: L -/
theorem sizeofMessageHeader_add_maxPayload :
    sizeofMessageHeader + maxPayload = udpSocketBufferSize := rfl

/-- The header is always read, since the buffer is longer than a header.
Source: `net_connection.c`, `net_connection_receive_thread_func`
Kind: L -/
theorem receiveHeader_eq (s : UdpSocket) (m : Message) :
    receiveHeader s m = some { m with header := wireHeader s.incomingBuffer } := by
  have hle : 0 + sizeofMessageHeader ≤ s.incomingBuffer.toList.length := by
    rw [List.Vector.toList_length]
    decide
  simp [receiveHeader, netConnectionReadHeader, load_of_le hle, wireHeader]

/-- Reading the data does not change the size of the message's own buffer.
Source: `net_connection.c`, `net_connection_read_data`
Kind: L -/
theorem length_data_builtData {buffer : SocketBuffer} {header : MessageHeader}
    {data : List UInt8} (hdata : maxPayload ≤ data.length) :
    (builtData buffer header data).data.length = data.length := by
  have hsize := sizeofMessageHeader_add_maxPayload
  unfold builtData
  split_ifs with hlen
  · have hslice : (slice buffer.toList sizeofMessageHeader header.length.toNat).length =
        header.length.toNat := length_slice (by rw [List.Vector.toList_length]; omega)
    simp only [List.length_append, List.length_drop, hslice]
    omega
  · rfl

/-- Reading the data stays in both buffers as soon as the message's own buffer has room for the
longest payload.
Source: `net_connection.c`, `net_connection_receive_thread_func`
Kind: L -/
theorem receiveData_eq {s : UdpSocket} {m : Message} (hdata : maxPayload ≤ m.data.length) :
    receiveData s m = some (builtData s.incomingBuffer m.header m.data) := by
  have hsize := sizeofMessageHeader_add_maxPayload
  unfold receiveData netConnectionReadData builtData
  by_cases hlong : m.header.length.toNat ≤ maxPayload
  · rw [if_pos hlong]
    split_ifs with hpos hgt
    · omega
    · have hload : load s.incomingBuffer.toList sizeofMessageHeader m.header.length.toNat =
          some (slice s.incomingBuffer.toList sizeofMessageHeader m.header.length.toNat) :=
        load_of_le (by rw [List.Vector.toList_length]; omega)
      have hlen : (slice s.incomingBuffer.toList sizeofMessageHeader
          m.header.length.toNat).length = m.header.length.toNat :=
        length_slice (by rw [List.Vector.toList_length]; omega)
      have hstore : store m.data 0
          (slice s.incomingBuffer.toList sizeofMessageHeader m.header.length.toNat) = some _ :=
        store_of_le (by omega)
      simp [hload, hstore, splice_zero, hlen]
    · -- no data: nothing is read, and the slice is empty
      have hzero : m.header.length.toNat = 0 := by omega
      simp [hzero]
  · have hpos : m.header.length.toNat > 0 := by omega
    rw [if_neg hlong]
    simp [hpos, Nat.not_le.mp hlong]

/-- What reading the data can do to a message: a length that fits leaves the header as it is, any
other one makes the message one of type `MESSAGE_TYPE_NONE`. The buffer keeps its size.
Source: `net_connection.c`, `net_connection_receive_thread_func`
Kind: L -/
theorem receiveData_cases {s : UdpSocket} {m m' : Message} (h : receiveData s m = some m') :
    m'.data.length = m.data.length ∧
      (m'.header = m.header ∧ m.header.length.toNat ≤ maxPayload ∨
        m'.header = { m.header with type := MessageType.none.code }) := by
  unfold receiveData netConnectionReadData at h
  obtain ⟨⟨status, m₁⟩, hread, h⟩ := Option.bind_eq_some_iff.mp h
  split_ifs at hread with hpos hlong
  · cases hread
    cases h
    exact ⟨rfl, .inr rfl⟩
  · obtain ⟨bytes, -, hread⟩ := Option.bind_eq_some_iff.mp hread
    obtain ⟨data, hstore, hread⟩ := Option.bind_eq_some_iff.mp hread
    cases hread
    cases h
    exact ⟨(length_of_store hstore).2, .inl ⟨rfl, Nat.not_lt.mp hlong⟩⟩
  · cases hread
    cases h
    exact ⟨rfl, .inl ⟨rfl, by omega⟩⟩

/-- Reading the data does not touch the address.
Source: `net_connection.c`, `net_connection_receive_thread_func`
Kind: L -/
theorem ownerAddr_of_receiveData {s : UdpSocket} {m m' : Message}
    (h : receiveData s m = some m') : m'.header.ownerAddr = m.header.ownerAddr := by
  obtain ⟨-, ⟨hheader, -⟩ | hheader⟩ := receiveData_cases h <;> rw [hheader]

/-- **The receive path.** It always yields a message, the one `built` describes.
Source: `net_connection.c`, `net_connection_receive_thread_func`
Kind: P -/
theorem receiveMessage_eq {s : UdpSocket} {m : Message} (hdata : maxPayload ≤ m.data.length) :
    receiveMessage s m = some (built s.incomingBuffer s.incomingAddr m.data) := by
  rw [receiveMessage, receiveHeader_eq]
  exact receiveData_eq hdata

/-- A datagram that holds a whole header determines the header.
Source: `net_connection.c`, `net_connection_read_header`
Kind: L -/
theorem wireHeader_overlay {buffer : SocketBuffer} {bytes : List UInt8}
    (hlen : sizeofMessageHeader ≤ bytes.length) :
    wireHeader (overlay buffer bytes) = headerOfBytes (slice bytes 0 sizeofMessageHeader) := by
  rw [wireHeader, slice_overlay (by omega) (by decide)]

/-! ## What the send path computes -/

/-- The bytes of a message on the wire.
Source: `net_connection.c`, `net_connection_write_header`, `net_connection_write_data`
Kind: D -/
def Message.datagram (m : Message) : List UInt8 :=
  m.header.bytes ++ slice m.data 0 m.header.length.toNat

/-- A datagram is as long as the header says.
Source: `net_connection.c`, `net_connection_write_header`, `net_connection_write_data`
Kind: L -/
theorem Message.length_datagram {m : Message} (h : m.header.length.toNat ≤ m.data.length) :
    m.datagram.length = sizeofMessageHeader + m.header.length.toNat := by
  rw [Message.datagram, List.length_append, MessageHeader.length_bytes, length_slice (by omega)]

/-- Writing the header: the first 28 bytes of the send buffer are the header's.
Source: `net_connection.c`, `net_connection_write_header`
Kind: L -/
theorem netConnectionWriteHeader_eq (s : UdpSocket) (h : MessageHeader) :
    ∃ buffer : SocketBuffer, netConnectionWriteHeader s h =
        some { s with outcomingBuffer := buffer } ∧
      slice buffer.toList 0 sizeofMessageHeader = h.bytes := by
  have hle : 0 + h.bytes.length ≤ udpSocketBufferSize := by
    rw [MessageHeader.length_bytes]
    decide
  obtain ⟨buffer, hstore, hlist⟩ := storeVec_of_le (v := s.outcomingBuffer) hle
  refine ⟨buffer, by simp [netConnectionWriteHeader, hstore], ?_⟩
  rw [hlist, ← h.length_bytes, slice_splice_self (Nat.zero_le _)]

/-- Writing the data of a message that is not too long: the send buffer then starts with the
message's datagram.
Source: `net_connection.c`, `net_connection_write_data`
Kind: L -/
theorem netConnectionWriteData_of_le {s : UdpSocket} {m : Message}
    (hheader : slice s.outcomingBuffer.toList 0 sizeofMessageHeader = m.header.bytes)
    (hmax : m.header.length.toNat ≤ maxPayload) (hdata : m.header.length.toNat ≤ m.data.length) :
    ∃ buffer : SocketBuffer, netConnectionWriteData s m =
        some (.success, { s with outcomingBuffer := buffer }) ∧
      slice buffer.toList 0 (sizeofMessageHeader + m.header.length.toNat) = m.datagram := by
  have hsize := sizeofMessageHeader_add_maxPayload
  unfold netConnectionWriteData
  split_ifs with hpos hlong
  · omega
  · have hload : load m.data 0 m.header.length.toNat =
        some (slice m.data 0 m.header.length.toNat) := load_of_le (by omega)
    have hlen : (slice m.data 0 m.header.length.toNat).length = m.header.length.toNat :=
      length_slice (by omega)
    have hoff : sizeofMessageHeader ≤ s.outcomingBuffer.toList.length := by
      rw [List.Vector.toList_length]
      omega
    obtain ⟨buffer, hstore, hlist⟩ := storeVec_of_le (v := s.outcomingBuffer)
      (show sizeofMessageHeader + (slice m.data 0 m.header.length.toNat).length ≤
        udpSocketBufferSize by omega)
    refine ⟨buffer, by simp [hload, hstore], ?_⟩
    have hself := @slice_splice_self _ _ (slice m.data 0 m.header.length.toNat) _ hoff
    rw [hlen] at hself
    rw [hlist, slice_add, slice_splice_before (by omega) hoff, hheader, Nat.zero_add, hself,
      Message.datagram]
  · -- no data: the datagram is the header alone
    have hzero : m.header.length.toNat = 0 := by omega
    refine ⟨s.outcomingBuffer, rfl, ?_⟩
    rw [Message.datagram, hzero, slice_zero_len, Nat.add_zero, List.append_nil, hheader]

/-- A payload that does not fit is rejected, and the buffer stays as it is.
Source: `net_connection.c`, `net_connection_write_data`
Kind: L -/
theorem netConnectionWriteData_of_long {s : UdpSocket} {m : Message}
    (hlong : maxPayload < m.header.length.toNat) :
    netConnectionWriteData s m = some (.errorMessageFormat, s) := by
  rw [netConnectionWriteData, if_pos (by omega), if_pos hlong]

/-- Encoding touches the send buffer only.
Source: `net_connection.c`, `net_connection_write_header`
Kind: L -/
theorem netConnectionWriteHeader_frame {s s' : UdpSocket} {h : MessageHeader}
    (hs : netConnectionWriteHeader s h = some s') :
    s'.incomingAddr = s.incomingAddr ∧ s'.incomingBuffer = s.incomingBuffer := by
  unfold netConnectionWriteHeader at hs
  obtain ⟨buffer, -, hs⟩ := Option.bind_eq_some_iff.mp hs
  cases hs
  exact ⟨rfl, rfl⟩

/-- And only its length keeps a message from being encoded.
Source: `net_connection.c`, `net_connection_write_data`
Kind: L -/
theorem netConnectionWriteData_frame {s s' : UdpSocket} {m : Message}
    {status : NetConnectionStatus} (hs : netConnectionWriteData s m = some (status, s')) :
    s'.incomingAddr = s.incomingAddr ∧ s'.incomingBuffer = s.incomingBuffer ∧
      (status ≠ .success → maxPayload < m.header.length.toNat) := by
  unfold netConnectionWriteData at hs
  split_ifs at hs with hpos hlong
  · cases hs
    exact ⟨rfl, rfl, fun _ => hlong⟩
  · obtain ⟨bytes, -, hs⟩ := Option.bind_eq_some_iff.mp hs
    obtain ⟨buffer, -, hs⟩ := Option.bind_eq_some_iff.mp hs
    cases hs
    exact ⟨rfl, rfl, fun h => absurd rfl h⟩
  · cases hs
    exact ⟨rfl, rfl, fun h => absurd rfl h⟩

/-- Sending from a buffer that starts with a message's datagram.
Source: `socket_udp.c`, `udp_socket_send`
Kind: L -/
theorem udpSocketSend_eq {s : UdpSocket} {m : Message}
    (hmax : m.header.length.toNat ≤ maxPayload)
    (hbytes : slice s.outcomingBuffer.toList 0 (sizeofMessageHeader + m.header.length.toNat) =
      m.datagram) :
    udpSocketSend s (m.header.length.toNat + sizeofMessageHeader) =
      some (m.datagram, s.incomingAddr) := by
  have hsize := sizeofMessageHeader_add_maxPayload
  have hload : load s.outcomingBuffer.toList 0 (m.header.length.toNat + sizeofMessageHeader) =
      some m.datagram := by
    rw [load_of_le (by rw [List.Vector.toList_length]; omega), Nat.add_comm, hbytes]
  simp [udpSocketSend, hload]

/-- **The send path.** A message that is not too long is sent, as its datagram, to its owner.
Source: `net_connection.c`, `net_connection_send_thread_func`
Kind: P -/
theorem sendMessage_of_le {s : UdpSocket} {m : Message}
    (hmax : m.header.length.toNat ≤ maxPayload) (hdata : m.header.length.toNat ≤ m.data.length) :
    ∃ s', sendMessage s m = some (s', some (m.datagram, m.header.ownerAddr)) := by
  obtain ⟨b₁, hwrite₁, hheader⟩ := netConnectionWriteHeader_eq s m.header
  obtain ⟨b₂, hwrite₂, hbytes⟩ :=
    @netConnectionWriteData_of_le { s with outcomingBuffer := b₁ } m hheader hmax hdata
  have hsend : udpSocketSend (sendOwner { s with outcomingBuffer := b₂ } m)
      (m.header.length.toNat + sizeofMessageHeader) = some (m.datagram, m.header.ownerAddr) :=
    udpSocketSend_eq hmax hbytes
  refine ⟨sendOwner { s with outcomingBuffer := b₂ } m, ?_⟩
  simp [sendMessage, hwrite₁, hwrite₂, hsend]

/-- A message that is too long is not sent.
Source: `net_connection.c`, `net_connection_send_thread_func`
Kind: P -/
theorem sendMessage_of_long {s : UdpSocket} {m : Message}
    (hlong : maxPayload < m.header.length.toNat) :
    ∃ s', sendMessage s m = some (s', none) := by
  obtain ⟨b₁, hwrite, -⟩ := netConnectionWriteHeader_eq s m.header
  refine ⟨{ s with outcomingBuffer := b₁ }, ?_⟩
  simp [sendMessage, hwrite, netConnectionWriteData_of_long hlong]

/-! ## The round trip -/

/-- Sending leaves the receive buffer alone.
Source: `net_connection.c`, `net_connection_send_thread_func`
Kind: L -/
theorem incomingBuffer_of_sendMessage {s s' : UdpSocket} {m : Message}
    {sent : Option (List UInt8 × SockaddrIn)} (h : sendMessage s m = some (s', sent)) :
    s'.incomingBuffer = s.incomingBuffer := by
  unfold sendMessage at h
  obtain ⟨s₁, hheader, h⟩ := Option.bind_eq_some_iff.mp h
  obtain ⟨⟨status, s₂⟩, hdata, h⟩ := Option.bind_eq_some_iff.mp h
  have hbuffer : s₂.incomingBuffer = s.incomingBuffer :=
    (netConnectionWriteData_frame hdata).2.1.trans (netConnectionWriteHeader_frame hheader).2
  by_cases hstatus : status = .success
  · simp only [hstatus, ne_eq, not_true_eq_false, if_false] at h
    obtain ⟨x, -, h⟩ := Option.bind_eq_some_iff.mp h
    cases h
    exact hbuffer
  · simp only [hstatus, ne_eq, not_false_eq_true, if_true, Option.some.injEq,
      Prod.mk.injEq] at h
    rw [← h.1, hbuffer]

/-- Decoding a receive buffer that starts with a message's datagram.
Source: `net_connection.c`, `net_connection_receive_thread_func`
Kind: P -/
theorem built_datagram (buffer : SocketBuffer) {m : Message} (owner : SockaddrIn)
    (data : List UInt8) (hmax : m.header.length.toNat ≤ maxPayload)
    (hdata : m.header.length.toNat ≤ m.data.length) :
    built (overlay buffer m.datagram) owner data =
      ⟨{ m.header with ownerAddr := owner },
        slice m.data 0 m.header.length.toNat ++ data.drop m.header.length.toNat⟩ := by
  have hsize := sizeofMessageHeader_add_maxPayload
  have hlen := Message.length_datagram hdata
  have hslice : slice m.datagram 0 sizeofMessageHeader = m.header.bytes :=
    slice_append_self m.header.length_bytes
  have hheader : wireHeader (overlay buffer m.datagram) = m.header := by
    rw [wireHeader_overlay (by omega), hslice, headerOfBytes_bytes]
  have hpayload : slice (overlay buffer m.datagram).toList sizeofMessageHeader
      m.header.length.toNat = slice m.data 0 m.header.length.toNat := by
    rw [slice_overlay (by omega) (by omega), Message.datagram,
      slice_append_skip m.header.length_bytes.le, MessageHeader.length_bytes, Nat.sub_self,
      slice_slice (by omega)]
  rw [built, hheader, builtData, if_pos hmax, hpayload]

/-- **The wire round trip.** A message whose payload fits in a datagram and in its own buffer is
written and sent without failure, and the receipt of what was sent yields a message with the same
type, length, capacity and payload, owned by the address it came from, whatever the send buffer,
the receive buffer and the new message's buffer held; a longer payload is refused and nothing is
sent.
Source: `net_connection.c`, the four `static` functions and the two thread functions
Kind: P -/
theorem wire_roundtrip (m : Message) (sender receiver : UdpSocket) (a : SockaddrIn)
    (fresh : FreshMemory) :
    (m.header.length.toNat ≤ maxPayload → m.header.length.toNat ≤ m.data.length →
      ∃ s₁ s₂ bytes new m', netConnectionWriteHeader sender m.header = some s₁ ∧
        netConnectionWriteData s₁ m = some (.success, s₂) ∧
        udpSocketSend (sendOwner s₂ m) (m.header.length.toNat + sizeofMessageHeader) =
          some (bytes, m.header.ownerAddr) ∧
        messageCreate .allOk fresh .none receiveCapacity = some new ∧
        receiveMessage (receiver.recvfrom ⟨bytes, a⟩) new = some m' ∧
        m'.header = { m.header with ownerAddr := a } ∧
        slice m'.data 0 m.header.length.toNat = slice m.data 0 m.header.length.toNat) ∧
    (maxPayload < m.header.length.toNat →
      (∀ s₁, netConnectionWriteData s₁ m = some (.errorMessageFormat, s₁)) ∧
        ∃ s', sendMessage sender m = some (s', none)) := by
  refine ⟨fun hmax hdata => ?_, fun hlong =>
    ⟨fun _ => netConnectionWriteData_of_long hlong, sendMessage_of_long hlong⟩⟩
  obtain ⟨b₁, hwrite₁, hheader⟩ := netConnectionWriteHeader_eq sender m.header
  obtain ⟨b₂, hwrite₂, hbytes⟩ :=
    @netConnectionWriteData_of_le { sender with outcomingBuffer := b₁ } m hheader hmax hdata
  obtain ⟨new, hnew, hblock⟩ := messageCreate_receive fresh
  have hroom : maxPayload ≤ new.data.length := hblock ▸ maxPayload_le_block fresh
  have hbuilt := built_datagram receiver.incomingBuffer a new.data hmax hdata
  refine ⟨_, _, m.datagram, new, _, hwrite₁, hwrite₂, udpSocketSend_eq hmax hbytes, hnew,
    receiveMessage_eq hroom, ?_, ?_⟩
  · exact congrArg Message.header hbuilt
  · refine (congrArg (fun m' : Message => slice m'.data 0 m.header.length.toNat) hbuilt).trans ?_
    exact slice_append_self (length_slice (by omega))

/-- A payload of two bytes, sent from one new socket and received by another.
Source: `net_connection.c`, `net_connection_send_thread_func`, `net_connection_receive_thread_func`
Kind: C -/
theorem wire_roundtrip_two_bytes :
    ∃ (bytes : List UInt8) (new m' : Message),
      receiveMessage ((udpSocketCreate ⟨2, 80, 1, 0⟩).recvfrom ⟨bytes, ⟨2, 81, 1, 0⟩⟩) new =
        some m' ∧
      m'.header = ⟨1, 2, ⟨2, 81, 1, 0⟩, 4⟩ ∧ slice m'.data 0 2 = [7, 9] := by
  obtain ⟨-, -, bytes, new, m', -, -, -, -, hreceive, hheader, hdata⟩ :=
    (wire_roundtrip ⟨⟨1, 2, ⟨2, 80, 1, 0⟩, 4⟩, [7, 9, 0, 0]⟩ (udpSocketCreate ⟨2, 79, 1, 0⟩)
      (udpSocketCreate ⟨2, 80, 1, 0⟩) ⟨2, 81, 1, 0⟩ ⟨⟨0, 0, 0, 0⟩, fun _ => 0⟩).1
      (by decide) (by decide)
  exact ⟨bytes, new, m', hreceive, hheader, hdata⟩

/-! ## The queues of a connection -/

section queues

variable {α : Type}

/-- The status, the queue and the messages deleted: by an overflow, and after a failed enqueue the
message itself.
Source: `net_connection.c`, `net_connection_add_to_queue`
Kind: D
Fidelity: exact (all pointers non-null) -/
def netConnectionAddToQueue (calls : EnqueueCalls) (q : MessageQueue α) (message : α) :
    Option (NetConnectionStatus × MessageQueue α × List α) := do
  let (status, q', deleted) ← messageQueueEnqueue calls q message
  if status ≠ .success then some (.errorQueue, q', deleted ++ [message])
  else some (.success, q', deleted)

/-- Source: `net_connection.c`, `net_connection_send`, on the outgoing queue. Kind: D
Fidelity: exact (all pointers non-null) -/
def netConnectionSend (calls : EnqueueCalls) (outgoing : MessageQueue α) (message : α) :
    Option (NetConnectionStatus × MessageQueue α × List α) :=
  netConnectionAddToQueue calls outgoing message

/-- Source: `net_connection.c`, `net_connection_receive_nonblocking`, on the incoming queue. Kind: D
Fidelity: exact (all pointers non-null) -/
def netConnectionReceiveNonblocking (calls : DequeueCalls) (incoming : MessageQueue α) :
    Option (Option α × MessageQueue α) :=
  messageQueueDequeueNonblocking calls incoming

/-- An addition succeeds exactly as the enqueue does.
Source: `net_connection.c`, `net_connection_add_to_queue`; `message_queue.c`,
`message_queue_enqueue`
Kind: L -/
theorem netConnectionAddToQueue_eq_success {calls : EnqueueCalls} {q q' : MessageQueue α} {m : α}
    {deleted : List α} :
    netConnectionAddToQueue calls q m = some (.success, q', deleted) ↔
      messageQueueEnqueue calls q m = some (.success, q', deleted) := by
  unfold netConnectionAddToQueue
  constructor
  · intro h
    obtain ⟨⟨status, q₁, deleted₁⟩, henqueue, h⟩ := Option.bind_eq_some_iff.mp h
    dsimp only at h
    split_ifs at h with hstatus
    · cases h
    · cases h
      rw [henqueue, not_not.mp hstatus]
  · intro h
    simp [h]

end queues

end CpuMonitor.Network
