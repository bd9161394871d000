import CpuMonitor.Server.Service

/-!
# Request classification

The request format: a datagram is well-formed when it is a header of type `MESSAGE_TYPE_PID` that
declares four bytes, followed by exactly these four. Every request should be logged once, and
answered with the usage or with `"not found"` if it is well-formed, with `"invalid"` if it is not.

* **The format** `WellFormedRequest`, `expectedRecord`, `expectedResponse`.
* **What the worker does** `serve_of_answer`: an answer of the handler is logged and sent.
* `classified_iff`: the datagrams that are classified as the format says. A malformed one is, if it
  happens to carry the type `MESSAGE_TYPE_NONE` or to declare more data than fits in a datagram; any
  other malformed one is not.
-/

namespace CpuMonitor.Server

open CpuMonitor.Lib CpuMonitor.Network

/-! ## The request format -/

/-- The header in a datagram's own bytes.
Source: `net_connection.c`, `net_connection_read_header`
Kind: D -/
def ownHeader (bytes : List UInt8) : MessageHeader :=
  headerOfBytes (slice bytes 0 sizeofMessageHeader)

/-- Source: `Readme.md`: a request contains a single PID. Kind: D -/
def WellFormedRequest (bytes : List UInt8) : Prop :=
  bytes.length = sizeofMessageHeader + (ownHeader bytes).length.toNat ∧
    (ownHeader bytes).type = MessageType.pid.code ∧ (ownHeader bytes).length.toNat = sizeofPid

/-- Whether bytes are a well-formed request can be computed.
Source: none: infrastructure
Kind: D -/
instance (bytes : List UInt8) : Decidable (WellFormedRequest bytes) :=
  inferInstanceAs (Decidable (_ ∧ _ ∧ _))

/-- The pid in a well-formed request.
Source: `server.c`, `worker_on_message`
Kind: D -/
def requestPid (bytes : List UInt8) : BitVec 32 :=
  BitVec.ofNat 32 (leValue (slice bytes sizeofMessageHeader sizeofPid))

/-- The record a request should get.
Source: `server.c`, `worker_on_message`
Kind: D -/
def expectedRecord (env : HandlerEnv) (bytes : List UInt8) : BufferText :=
  if WellFormedRequest bytes then recordPid env (requestPid bytes) else recordInvalid env

/-- The response a request should get.
Source: `server.c`, `worker_on_message`
Kind: D -/
def expectedResponse (env : HandlerEnv) (bytes : List UInt8) : BufferText :=
  if WellFormedRequest bytes then responsePid env (requestPid bytes) else responseInvalid

/-- The datagram `p`, received into the socket `s`, appends `record` to the journal, which held
`content`, and nothing else, and is answered with the payload `response`.
Source: `server.c`, `worker_on_message`
Kind: D -/
def LoggedAndAnswered (env : HandlerEnv) (j : Journal) (content : List UInt8) (s : UdpSocket)
    (p : Packet) (fresh : FreshMemory) (record response : BufferText) : Prop :=
  ∃ r, serve env j s p fresh = some r ∧ Holds r.journal.region (content ++ record.1.stored) ∧
    ∃ bytes dest, r.sent = some (bytes, dest) ∧
      bytes.drop sizeofMessageHeader = response.1.stored

/-! ## What the worker does -/

section worker

variable {env : HandlerEnv} {j : Journal} {content : List UInt8} {s : UdpSocket} {p : Packet}
  {fresh : FreshMemory}

/-- The payload of a reply with a text.
Source: `server.c`, `worker_on_message`
Kind: L -/
theorem drop_datagram_withText (m : Message) (response : BufferText) :
    (withText m response.1).datagram.drop sizeofMessageHeader = response.1.stored := by
  rw [Message.datagram, payload_withText response.2,
    List.drop_append_of_le_length (by rw [MessageHeader.length_bytes]),
    List.drop_of_length_le (by rw [MessageHeader.length_bytes]), List.nil_append]

/-- **An answer of the handler is logged and sent.**
Source: `server.c`, `worker_on_message`
Kind: P -/
theorem serve_of_answer (hok : env.AllOk) (hcalls : env.journalCalls = .allOk)
    (hholds : Holds j.region content)
    (hroom : sizeofSizeT + content.length + textBufferSize ≤ j.maxSize) {m₁ : Message}
    {record response : BufferText}
    (hanswer : workerAnswer env (requestOf s.incomingBuffer p fresh) =
      some ⟨m₁, some record, some response⟩)
    (hdata : m₁.data = (requestOf s.incomingBuffer p fresh).data) :
    LoggedAndAnswered env j content s p fresh record response := by
  have hsize := textBufferSize_le_maxPayload
  have hbuf := maxPayload_le_requestOf s.incomingBuffer p fresh
  obtain ⟨r, hworker, hr⟩ :=
    workerOnMessage_of_answer hok hcalls hanswer (by rw [hdata]; omega) hholds hroom
  have hsend : Sendable (withText m₁ response.1) := fun _ => length_le_data_withText response.2
  have hlen : (withText m₁ response.1).header.length.toNat ≤ maxPayload := by
    rw [toNat_length_withText response.2]
    exact le_trans response.2 hsize
  exact ⟨_, serve_of_worker hworker hsend, hr, _, _, if_pos hlen,
    drop_datagram_withText m₁ response⟩

/-- What is logged and sent is determined.
Source: `server.c`, `worker_on_message`
Kind: L -/
theorem LoggedAndAnswered.unique {record record' response response' : BufferText}
    (h : LoggedAndAnswered env j content s p fresh record response)
    (h' : LoggedAndAnswered env j content s p fresh record' response') : response = response' := by
  obtain ⟨r, hr, -, bytes, dest, hsent, hbytes⟩ := h
  obtain ⟨r', hr', -, bytes', dest', hsent', hbytes'⟩ := h'
  obtain rfl := Option.some.inj (hr.symm.trans hr')
  obtain ⟨rfl, -⟩ := Prod.mk.inj (Option.some.inj (hsent.symm.trans hsent'))
  exact Subtype.ext (CString.stored_injective (hbytes.symm.trans hbytes'))

/-- A message of an unknown type is not logged.
Source: `server.c`, `worker_on_message`
Kind: L -/
theorem not_logged_of_other (hholds : Holds j.region content) (record response : BufferText)
    (hnone : (requestOf s.incomingBuffer p fresh).header.type ≠ MessageType.none.code)
    (hpid : (requestOf s.incomingBuffer p fresh).header.type ≠ MessageType.pid.code) :
    ¬ LoggedAndAnswered env j content s p fresh record response := by
  rintro ⟨r, hr, hlogged, -⟩
  have hworker : workerOnMessage env j (requestOf s.incomingBuffer p fresh) =
      some (requestOf s.incomingBuffer p fresh, j) := by
    simp [workerOnMessage, workerAnswer_of_other hnone hpid, Answer.log, Answer.reply]
  have hsend : Sendable (requestOf s.incomingBuffer p fresh) :=
    fun h => le_trans h (maxPayload_le_requestOf _ _ _)
  obtain rfl := Option.some.inj (hr.symm.trans (serve_of_worker hworker hsend))
  have hcontent := hlogged.journalContent.symm.trans hholds.journalContent
  have hlen := congrArg List.length hcontent
  rw [List.length_append, CString.length_stored] at hlen
  omega

/-- A number is never the response `"invalid"`, and neither is `"not found"`.
Source: `server.c`, `worker_on_message`
Kind: L -/
theorem responsePid_ne_responseInvalid (env : HandlerEnv) (pid : BitVec 32) :
    responsePid env pid ≠ responseInvalid := by
  unfold responsePid
  split_ifs with husage
  · decide
  · intro heq
    have hmem : (105 : UInt8) ∈ (responseUsage env pid).1.bytes := by
      rw [heq]
      decide
    have hnumeric : Numeric 105 := numeric_fixed6 (List.mem_of_mem_take hmem)
    exact absurd hnumeric.lt.2 (by decide)

/-- A request that the receive thread has marked, or that came marked, as `MESSAGE_TYPE_NONE`.
Source: `server.c`, `worker_on_message`
Kind: L -/
theorem logged_invalid (hok : env.AllOk) (hcalls : env.journalCalls = .allOk)
    (hholds : Holds j.region content)
    (hroom : sizeofSizeT + content.length + textBufferSize ≤ j.maxSize)
    (hmark : (wireHeader (overlay s.incomingBuffer p.bytes)).type = MessageType.none.code ∨
      maxPayload < (wireHeader (overlay s.incomingBuffer p.bytes)).length.toNat) :
    LoggedAndAnswered env j content s p fresh (recordInvalid env) responseInvalid := by
  have htype : (requestOf s.incomingBuffer p fresh).header.type = MessageType.none.code := by
    rcases Nat.lt_or_ge maxPayload
      (wireHeader (overlay s.incomingBuffer p.bytes)).length.toNat with hlong | hle
    · rw [requestOf_of_long fresh hlong]
    · rw [requestOf_of_le fresh hle]
      exact hmark.resolve_right (Nat.not_lt.mpr hle)
  exact serve_of_answer hok hcalls hholds hroom (workerAnswer_of_none hok htype) rfl

/-- A request of type `MESSAGE_TYPE_PID` that does not declare too much data: the pid is the first
four bytes of its data buffer, whatever they are.
Source: `server.c`, `worker_on_message`
Kind: L -/
theorem logged_pid (fresh : FreshMemory) (hok : env.AllOk) (hcalls : env.journalCalls = .allOk)
    (hholds : Holds j.region content)
    (hroom : sizeofSizeT + content.length + textBufferSize ≤ j.maxSize)
    (htype : (wireHeader (overlay s.incomingBuffer p.bytes)).type = MessageType.pid.code)
    (hle : (wireHeader (overlay s.incomingBuffer p.bytes)).length.toNat ≤ maxPayload) :
    ∃ pid, messagePid (requestOf s.incomingBuffer p fresh) = some pid ∧
      LoggedAndAnswered env j content s p fresh (recordPid env pid) (responsePid env pid) := by
  have hdata := maxPayload_le_requestOf s.incomingBuffer p fresh
  have htype' : (requestOf s.incomingBuffer p fresh).header.type = MessageType.pid.code := by
    rw [requestOf_of_le fresh hle]
    exact htype
  have hpid := messagePid_eq (sizeofPid_le_maxPayload.trans hdata)
  exact ⟨_, hpid, serve_of_answer hok hcalls hholds hroom (workerAnswer_of_pid hok htype' hpid) rfl⟩

/-- The pid of a well-formed request is read from the datagram.
Source: `server.c`, `worker_on_message`
Kind: L -/
theorem messagePid_of_wellFormed (h : WellFormedRequest p.bytes) :
    messagePid (requestOf s.incomingBuffer p fresh) = some (requestPid p.bytes) := by
  obtain ⟨hlen, -, hfour⟩ := h
  rw [hfour] at hlen
  have hsize : sizeofMessageHeader + sizeofPid ≤ udpSocketBufferSize := by decide
  have hwire : wireHeader (overlay s.incomingBuffer p.bytes) = ownHeader p.bytes :=
    wireHeader_overlay (by omega)
  have hle : (wireHeader (overlay s.incomingBuffer p.bytes)).length.toNat ≤ maxPayload := by
    rw [hwire, hfour]
    decide
  have hslice : (slice (overlay s.incomingBuffer p.bytes).toList sizeofMessageHeader
      sizeofPid).length = sizeofPid := length_slice (by rwa [List.Vector.toList_length])
  have hdata := maxPayload_le_requestOf s.incomingBuffer p fresh
  rw [messagePid_eq (sizeofPid_le_maxPayload.trans hdata), requestOf_of_le fresh hle, hwire, hfour]
  simp only [requestPid]
  rw [slice_append_self hslice, slice_overlay hlen.ge hsize]

end worker

/-- **Which datagrams are classified as the request format says**: the well-formed ones, and of the
malformed ones those whose header, as it is read from the buffer, has the type `MESSAGE_TYPE_NONE`
or declares more data than fits in a datagram. Any other malformed datagram is treated as a request
for a pid if its type is `MESSAGE_TYPE_PID`, and else neither logged nor answered with `"invalid"`.
Source: `net_connection.c`, `net_connection_read_header` (no validation); `server.c`,
`worker_on_message` (no branch for an unknown type, no test of the length)
Kind: P
Hyps: room for one record; every call succeeds -/
theorem classified_iff (env : HandlerEnv) (hok : env.AllOk)
    (hcalls : env.journalCalls = .allOk) (j : Journal) (content : List UInt8)
    (hholds : Holds j.region content)
    (hroom : sizeofSizeT + content.length + textBufferSize ≤ j.maxSize) (s : UdpSocket)
    (p : Packet) (fresh : FreshMemory) :
    LoggedAndAnswered env j content s p fresh (expectedRecord env p.bytes)
        (expectedResponse env p.bytes) ↔
      WellFormedRequest p.bytes ∨
        (wireHeader (overlay s.incomingBuffer p.bytes)).type = MessageType.none.code ∨
        maxPayload < (wireHeader (overlay s.incomingBuffer p.bytes)).length.toNat := by
  by_cases hwf : WellFormedRequest p.bytes
  · -- well-formed: the header and the pid are the datagram's own
    have hwire : wireHeader (overlay s.incomingBuffer p.bytes) = ownHeader p.bytes :=
      wireHeader_overlay (by rw [hwf.1]; exact Nat.le_add_right _ _)
    obtain ⟨pid, hpid, hlogged⟩ := logged_pid fresh hok hcalls hholds hroom
      (hwire ▸ hwf.2.1) (by rw [hwire, hwf.2.2]; decide)
    rw [messagePid_of_wellFormed hwf, Option.some.injEq] at hpid
    subst hpid
    simp only [expectedRecord, expectedResponse, hwf, if_true, true_or, iff_true]
    exact hlogged
  · simp only [expectedRecord, expectedResponse, hwf, if_false, false_or]
    refine ⟨fun hlogged => ?_, logged_invalid hok hcalls hholds hroom⟩
    by_contra hmark
    rw [not_or, Nat.not_lt] at hmark
    obtain ⟨hnone, hle⟩ := hmark
    by_cases htype : (wireHeader (overlay s.incomingBuffer p.bytes)).type = MessageType.pid.code
    · obtain ⟨pid, -, hpid⟩ := logged_pid fresh hok hcalls hholds hroom htype hle
      exact responsePid_ne_responseInvalid env pid (hpid.unique hlogged)
    · refine not_logged_of_other hholds _ _ ?_ ?_ hlogged
      · rwa [requestOf_of_le fresh hle]
      · rwa [requestOf_of_le fresh hle]

/-- A datagram of a header alone.
Source: none: infrastructure
Kind: D -/
def headerOnly (type length : UInt32) : Packet :=
  ⟨MessageHeader.bytes ⟨type, length, ⟨0, 0, 0, 0⟩, 0⟩, ⟨2, 80, 1, 0⟩⟩

/-- A datagram that is a header only is read back as this header, without an address.
Source: `net_connection.c`, `net_connection_read_header`
Kind: L -/
theorem wireHeader_headerOnly (buffer : SocketBuffer) (type length : UInt32) :
    wireHeader (overlay buffer (headerOnly type length).bytes) =
      ⟨type, length, ⟨0, 0, 0, 0⟩, 0⟩ := by
  have hlen : (headerOnly type length).bytes.length = sizeofMessageHeader :=
    MessageHeader.length_bytes _
  rw [wireHeader_overlay hlen.ge, ← hlen, slice_length]
  exact headerOfBytes_bytes _

/-- A request for the process `7`, received by a new worker with an empty journal.
Source: `server.c`, `worker_on_message`
Kind: C -/
theorem classified_request_seven :
    ∃ j : Journal, LoggedAndAnswered quietEnv j [] (udpSocketCreate ⟨0, 0, 0, 0⟩)
      ⟨(headerOnly MessageType.pid.code 4).bytes ++ [7, 0, 0, 0], ⟨2, 80, 1, 0⟩⟩ zeroMemory
      (recordUsage quietEnv 7) (responseUsage quietEnv 7) := by
  obtain ⟨r, -, hholds⟩ := @journalCreate_holds 300 (by decide) (by norm_num)
  have hroom : sizeofSizeT + ([] : List UInt8).length + textBufferSize ≤ 300 := by decide
  exact ⟨⟨300, r⟩, (classified_iff quietEnv quietEnv_allOk rfl ⟨300, r⟩ [] hholds hroom _
    ⟨(headerOnly MessageType.pid.code 4).bytes ++ [7, 0, 0, 0], ⟨2, 80, 1, 0⟩⟩ _).mpr
    (.inl (by decide +kernel))⟩

/-- **Two malformed datagrams that are not rejected.** A header of type `2` is neither logged nor
answered with `"invalid"`; a header of type `MESSAGE_TYPE_PID` that declares no data is answered
about a pid that was never sent.
Source: `server.c`, `worker_on_message`
Kind: C -/
theorem malformed_not_rejected :
    ∃ j : Journal, Holds j.region [] ∧ sizeofSizeT + textBufferSize ≤ j.maxSize ∧
      ∀ p ∈ [headerOnly 2 0, headerOnly MessageType.pid.code 0], ¬ WellFormedRequest p.bytes ∧
        ¬ LoggedAndAnswered quietEnv j [] (udpSocketCreate ⟨0, 0, 0, 0⟩) p zeroMemory
          (recordInvalid quietEnv) responseInvalid := by
  obtain ⟨r, -, hholds⟩ := @journalCreate_holds 300 (by decide) (by norm_num)
  have hroom : sizeofSizeT + ([] : List UInt8).length + textBufferSize ≤ 300 := by decide
  refine ⟨⟨300, r⟩, hholds, hroom, ?_⟩
  intro p hp
  simp only [List.mem_cons, List.not_mem_nil, or_false] at hp
  rcases hp with rfl | rfl
  · have hle : (wireHeader (overlay (udpSocketCreate ⟨0, 0, 0, 0⟩).incomingBuffer
        (headerOnly 2 0).bytes)).length.toNat ≤ maxPayload := by
      rw [wireHeader_headerOnly]
      decide
    refine ⟨by decide +kernel, not_logged_of_other hholds _ _ ?_ ?_⟩ <;>
      · rw [requestOf_of_le zeroMemory hle, wireHeader_headerOnly]
        decide
  · refine ⟨by decide +kernel, fun hlogged => ?_⟩
    obtain ⟨pid, -, hpid⟩ := @logged_pid quietEnv ⟨300, r⟩ [] (udpSocketCreate ⟨0, 0, 0, 0⟩)
      (headerOnly MessageType.pid.code 0) zeroMemory quietEnv_allOk rfl hholds hroom
      (by rw [wireHeader_headerOnly]) (by rw [wireHeader_headerOnly]; decide)
    exact responsePid_ne_responseInvalid quietEnv pid (hpid.unique hlogged)

end CpuMonitor.Server
