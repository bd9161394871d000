import CpuMonitor.Lib.Buffer

/-!
# Messages and their header on the wire

`network/message.h` and `network/message.c`: a message is a header of 28 bytes and a pointer to a
separately allocated data buffer. The header goes over the wire as it lies in memory.

* **The data model** `SockaddrIn`, `MessageHeader`, `Message`. The `type` field is the raw 32-bit
  word: a received one can hold a value that is no `message_type_t`. The length of `Message.data`
  is the allocated size of the buffer, whatever the header's `capacity` says.
* **The layout** `MessageHeader.bytes`, `headerOfBytes`: the in-memory image of a header and the
  header of an image (`headerOfBytes_bytes`, `bytes_headerOfBytes`).
* **The operations** `messageCreate`, `messageWrite`, `messageRead`; memory that `malloc` returns
  holds arbitrary bytes (`FreshMemory`), and a copy that leaves a buffer is `none`.
-/

namespace CpuMonitor.Network

open CpuMonitor.Lib

/-! ## The data model -/

/-- Source: `message.h`, `message_type_t`. Kind: D -/
inductive MessageType
  | none
  | pid
  deriving DecidableEq, Repr

/-- The value of an enumerator.
Source: `message.h`, `message_type_t`
Kind: D -/
def MessageType.code : MessageType → UInt32
  | .none => 0
  | .pid => 1

/-- Source: `message.h`, `message_status_t`. Kind: D -/
inductive MessageStatus
  | success
  | errorNullPointer
  | errorMemoryAlloc
  | errorWrite
  | errorRead
  deriving DecidableEq, Repr

/-- `struct sockaddr_in`, 16 bytes: the port and the address are the raw words of the structure
(in network order), and the padding is part of it.
Source: none: infrastructure
Kind: D -/
@[ext] structure SockaddrIn where
  family : UInt16
  port : UInt16
  addr : UInt32
  zero : UInt64
  deriving DecidableEq, Repr

/-- Source: `message.h`, `message_header_t`. Kind: D
Fidelity: exact (28 bytes without padding) -/
@[ext] structure MessageHeader where
  type : UInt32
  length : UInt32
  ownerAddr : SockaddrIn
  capacity : UInt32
  deriving DecidableEq, Repr

/-- Source: `message.h`, `message_t`. Kind: D -/
@[ext] structure Message where
  header : MessageHeader
  /-- The buffer at `message->data`; its length is its allocated size. -/
  data : List UInt8
  deriving DecidableEq, Repr

/-- `sizeof(message_header_t)`.
Source: `message.h`, `message_header_t`
Kind: D -/
def sizeofMessageHeader : ℕ := 28

/-- `sizeof(pid_t)`, which is `sizeof(int)`.
Source: none: infrastructure
Kind: D -/
def sizeofPid : ℕ := 4

/-! ## The layout of a header -/

/-- The 16 bytes of an address.
Source: none: infrastructure
Kind: D -/
def SockaddrIn.bytes (a : SockaddrIn) : List UInt8 :=
  leBytes 2 a.family.toNat ++ (leBytes 2 a.port.toNat ++
    (leBytes 4 a.addr.toNat ++ leBytes 8 a.zero.toNat))

/-- The address in 16 bytes.
Source: none: infrastructure
Kind: D -/
def sockaddrOfBytes (bs : List UInt8) : SockaddrIn where
  family := UInt16.ofNat (leValue (slice bs 0 2))
  port := UInt16.ofNat (leValue (slice bs 2 2))
  addr := UInt32.ofNat (leValue (slice bs 4 4))
  zero := UInt64.ofNat (leValue (slice bs 8 8))

/-- The 28 bytes of a header.
Source: `message.h`, `message_header_t`
Kind: D -/
def MessageHeader.bytes (h : MessageHeader) : List UInt8 :=
  leBytes 4 h.type.toNat ++ (leBytes 4 h.length.toNat ++
    (h.ownerAddr.bytes ++ leBytes 4 h.capacity.toNat))

/-- The header in 28 bytes.
Source: `message.h`, `message_header_t`
Kind: D -/
def headerOfBytes (bs : List UInt8) : MessageHeader where
  type := UInt32.ofNat (leValue (slice bs 0 4))
  length := UInt32.ofNat (leValue (slice bs 4 4))
  ownerAddr := sockaddrOfBytes (slice bs 8 16)
  capacity := UInt32.ofNat (leValue (slice bs 24 4))

/-- An address takes sixteen bytes.
Source: none: infrastructure
Kind: L -/
@[simp] theorem SockaddrIn.length_bytes (a : SockaddrIn) : a.bytes.length = 16 := by
  simp [SockaddrIn.bytes]

/-- A header takes `sizeof(message_header_t)` bytes.
Source: `message.h`, `message_header_t`
Kind: L -/
@[simp] theorem MessageHeader.length_bytes (h : MessageHeader) :
    h.bytes.length = sizeofMessageHeader := by
  simp [MessageHeader.bytes, sizeofMessageHeader]

section words

/-- A field of two bytes is read back from its bytes.
Source: none: infrastructure
Kind: L -/
@[simp] theorem ofNat_leValue_leBytes_two (x : UInt16) :
    UInt16.ofNat (leValue (leBytes 2 x.toNat)) = x := by
  rw [leValue_leBytes_of_lt (by simpa using x.toNat_lt), UInt16.ofNat_toNat]

/-- A field of four bytes is read back from its bytes.
Source: none: infrastructure
Kind: L -/
@[simp] theorem ofNat_leValue_leBytes_four (x : UInt32) :
    UInt32.ofNat (leValue (leBytes 4 x.toNat)) = x := by
  rw [leValue_leBytes_of_lt (by simpa using x.toNat_lt), UInt32.ofNat_toNat]

/-- A field of eight bytes is read back from its bytes.
Source: none: infrastructure
Kind: L -/
@[simp] theorem ofNat_leValue_leBytes_eight (x : UInt64) :
    UInt64.ofNat (leValue (leBytes 8 x.toNat)) = x := by
  rw [leValue_leBytes_of_lt (by simpa using x.toNat_lt), UInt64.ofNat_toNat]

end words

/-- An address is read back from its bytes.
Source: none: infrastructure
Kind: L -/
theorem sockaddrOfBytes_bytes (a : SockaddrIn) : sockaddrOfBytes a.bytes = a := by
  have hzero : slice (leBytes 8 a.zero.toNat) 0 8 = leBytes 8 a.zero.toNat := by
    simpa using slice_length (leBytes 8 a.zero.toNat)
  ext1 <;> simp [sockaddrOfBytes, SockaddrIn.bytes, slice_append_self, slice_append_skip, hzero]

/-- **The layout is faithful**: a header is read back from its bytes.
Source: `message.h`, `message_header_t`
Kind: P -/
theorem headerOfBytes_bytes (h : MessageHeader) : headerOfBytes h.bytes = h := by
  have hcap : slice (leBytes 4 h.capacity.toNat) 0 4 = leBytes 4 h.capacity.toNat := by
    simpa using slice_length (leBytes 4 h.capacity.toNat)
  ext1 <;> simp [headerOfBytes, MessageHeader.bytes, slice_append_self, slice_append_skip, hcap,
    sockaddrOfBytes_bytes]

/-! ## The operations -/

/-- What `malloc` leaves in the blocks it returns: the parts of a new message that
`message_create` does not set.
Source: none: infrastructure
Kind: D -/
structure FreshMemory where
  ownerAddr : SockaddrIn
  data : ℕ → UInt8

/-- `UINT32_MAX`.
Source: none: infrastructure
Kind: D -/
def uint32Max : ℕ := 2 ^ 32 - 1

/-- Which calls of `message_create` succeed.
Source: `message.c`, `message_create`
Kind: D -/
structure MessageCreateCalls where
  mallocMessage : Bool
  mallocData : Bool
  deriving DecidableEq

/-- Every call succeeds.
Source: none: infrastructure
Kind: D -/
def MessageCreateCalls.allOk : MessageCreateCalls := ⟨true, true⟩

/-- A block of `n` bytes as `malloc` returns it.
Source: none: infrastructure
Kind: D -/
def FreshMemory.block (fresh : FreshMemory) (n : ℕ) : List UInt8 := (List.range n).map fresh.data

/-- A block has the size that was asked for.
Source: none: infrastructure
Kind: L -/
@[simp] theorem FreshMemory.length_block (fresh : FreshMemory) (n : ℕ) :
    (fresh.block n).length = n := by
  simp [FreshMemory.block]

/-- Source: `message.c`, `message_create`. Kind: D
Fidelity: exact (a failed second `malloc` frees the first block) -/
def messageCreate (calls : MessageCreateCalls) (fresh : FreshMemory) (type : MessageType)
    (dataCapacity : UInt32) : Option Message :=
  if dataCapacity.toNat > uint32Max - sizeofMessageHeader then none
  else if !calls.mallocMessage then none
  else if !calls.mallocData then none
  else some ⟨⟨type.code, 0, fresh.ownerAddr, dataCapacity⟩, fresh.block dataCapacity.toNat⟩

/-- A message that was created.
Source: `message.c`, `message_create`
Kind: L -/
theorem messageCreate_eq_some {calls : MessageCreateCalls} {fresh : FreshMemory}
    {type : MessageType} {dataCapacity : UInt32} {m : Message}
    (h : messageCreate calls fresh type dataCapacity = some m) :
    dataCapacity.toNat ≤ uint32Max - sizeofMessageHeader ∧
      m = ⟨⟨type.code, 0, fresh.ownerAddr, dataCapacity⟩, fresh.block dataCapacity.toNat⟩ := by
  unfold messageCreate at h
  split_ifs at h with hlarge
  exact ⟨Nat.not_lt.mp hlarge, (Option.some.inj h).symm⟩

/-- The two blocks of a message: the `message_t` itself and the buffer at `data`.
Source: `message.c`, `message_delete`
Kind: D -/
inductive MessageBlock
  | message
  | data
  deriving DecidableEq

/-- The blocks that are passed to `free`: the buffer at `data` is not among them.
Source: `message.c`, `message_delete`
Kind: D
Fidelity: exact (non-null pointer) -/
def messageDelete : List MessageBlock := [.message]

/-- The sum is one of `size_t`s and is returned as a `uint32_t`.
Source: `message.c`, `message_size`
Kind: D
Fidelity: exact (non-null pointer) -/
def messageSize (m : Message) : UInt32 :=
  UInt32.ofNat (sizeofMessageHeader + m.header.length.toNat)

/-- The status and the message; `none` is a copy outside one of the two buffers. The test is on
the header's capacity, not on the allocated size.
Source: `message.c`, `message_write`
Kind: D
Fidelity: exact (both pointers non-null) -/
def messageWrite (m : Message) (data : List UInt8) (length : UInt32) :
    Option (MessageStatus × Message) :=
  if m.header.capacity < length then some (.errorWrite, m)
  else do
    let buffer ←
      if 0 < length then do
        let bytes ← load data 0 length.toNat
        store m.data 0 bytes
      else some m.data
    some (.success, { m with header := { m.header with length := length }, data := buffer })

/-- A write within the capacity, the allocated size and the caller's data.
Source: `message.c`, `message_write`
Kind: P -/
theorem messageWrite_of_fits {m : Message} {data : List UInt8} {length : UInt32}
    (hlen : length.toNat ≤ data.length) (hcap : length ≤ m.header.capacity)
    (hbuf : length.toNat ≤ m.data.length) :
    messageWrite m data length = some (.success,
      { header := { m.header with length := length }
        data := data.take length.toNat ++ m.data.drop length.toNat }) := by
  rw [messageWrite, if_neg (UInt32.not_lt.mpr hcap)]
  split_ifs with hpos
  · have hload : load data 0 length.toNat = some (data.take length.toNat) := by
      rw [load_of_le (by omega), slice, List.drop_zero]
    have htake : (data.take length.toNat).length = length.toNat := by
      rw [List.length_take, Nat.min_eq_left hlen]
    have hstore : store m.data 0 (data.take length.toNat) =
        some (data.take length.toNat ++ m.data.drop length.toNat) := by
      rw [store_of_le (by omega), splice_zero, htake]
    simp [hload, hstore]
  · -- nothing to copy
    have hzero : length.toNat = 0 := by
      rw [UInt32.lt_iff_toNat_lt] at hpos
      simpa using hpos
    simp [hzero]

/-- A write of a whole buffer.
Source: `message.c`, `message_write`
Kind: L -/
theorem messageWrite_of_le {m : Message} {data : List UInt8} {length : UInt32}
    (hlen : data.length = length.toNat) (hcap : length ≤ m.header.capacity)
    (hbuf : length.toNat ≤ m.data.length) :
    messageWrite m data length = some (.success,
      { header := { m.header with length := length }
        data := data ++ m.data.drop data.length }) := by
  rw [messageWrite_of_fits hlen.ge hcap hbuf, ← hlen, List.take_length]

/-- What a write can do: nothing, or set the length, which is within the capacity and, the data
having been copied, within the buffer.
Source: `message.c`, `message_write`
Kind: L -/
theorem messageWrite_cases {m m' : Message} {data : List UInt8} {length : UInt32}
    {status : MessageStatus} (h : messageWrite m data length = some (status, m')) :
    m' = m ∨ length ≤ m.header.capacity ∧ length.toNat ≤ m.data.length ∧
      m'.header = { m.header with length := length } ∧ m'.data.length = m.data.length := by
  unfold messageWrite at h
  split_ifs at h with hcap hpos
  · cases h
    exact .inl rfl
  · obtain ⟨bytes, hload, h⟩ := Option.bind_eq_some_iff.mp h
    obtain ⟨buffer, hstore, h⟩ := Option.bind_eq_some_iff.mp h
    cases h
    have hbytes := (length_of_load hload).2
    obtain ⟨hle, hlength⟩ := length_of_store hstore
    exact .inr ⟨UInt32.not_lt.mp hcap, by omega, rfl, hlength⟩
  · cases h
    have hzero : length.toNat = 0 := by
      rw [UInt32.lt_iff_toNat_lt] at hpos
      simpa using hpos
    exact .inr ⟨UInt32.not_lt.mp hcap, by omega, rfl, rfl⟩

/-- The status, the caller's buffer and `*read_length` after the call.
Source: `message.c`, `message_read`
Kind: D
Fidelity: exact (all pointers non-null) -/
def messageRead (m : Message) (data : List UInt8) (length : UInt32) :
    Option (MessageStatus × List UInt8 × UInt32) :=
  let readLength := if length < m.header.length then length else m.header.length
  if 0 < readLength then do
    let bytes ← load m.data 0 readLength.toNat
    let data' ← store data 0 bytes
    some (.success, data', readLength)
  else some (.errorRead, data, readLength)

/-- The smaller of two lengths, as a number.
Source: none: infrastructure
Kind: L -/
theorem toNat_ite_lt (a b : UInt32) : (if a < b then a else b).toNat = min a.toNat b.toNat := by
  split_ifs with h
  · rw [UInt32.lt_iff_toNat_lt] at h
    omega
  · rw [UInt32.lt_iff_toNat_lt] at h
    omega

/-- **What a read delivers**: as much of the payload as was asked for, and nothing is an error.
Source: `message.c`, `message_read`
Kind: P -/
theorem messageRead_eq {m : Message} (hm : m.header.length.toNat ≤ m.data.length)
    {data : List UInt8} {length : UInt32} (hdata : length.toNat ≤ data.length) :
    ∃ readLength : UInt32, readLength.toNat = min length.toNat m.header.length.toNat ∧
      messageRead m data length = some
        (if readLength.toNat = 0 then .errorRead else .success,
          slice m.data 0 readLength.toNat ++ data.drop readLength.toNat, readLength) := by
  have hmin := toNat_ite_lt length m.header.length
  refine ⟨_, hmin, ?_⟩
  rw [messageRead]
  generalize (if length < m.header.length then length else m.header.length) = readLength at hmin ⊢
  by_cases hzero : readLength.toNat = 0
  · have hpos : ¬0 < readLength := by
      rw [UInt32.lt_iff_toNat_lt, hzero]
      exact lt_irrefl 0
    rw [if_neg hpos, if_pos hzero, hzero]
    simp
  · have hpos : 0 < readLength := by
      rw [UInt32.lt_iff_toNat_lt]
      exact Nat.pos_of_ne_zero hzero
    have hload : load m.data 0 readLength.toNat = some (slice m.data 0 readLength.toNat) :=
      load_of_le (by omega)
    have hlength : (slice m.data 0 readLength.toNat).length = readLength.toNat :=
      length_slice (by omega)
    have hstore : store data 0 (slice m.data 0 readLength.toNat) =
        some (slice m.data 0 readLength.toNat ++ data.drop readLength.toNat) := by
      rw [store_of_le (by omega), splice_zero, hlength]
    rw [if_pos hpos, if_neg hzero]
    simp [hload, hstore]

end CpuMonitor.Network
