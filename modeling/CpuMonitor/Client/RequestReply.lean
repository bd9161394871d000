import CpuMonitor.Server.Classification
import CpuMonitor.Server.Flow
import CpuMonitor.Server.Sequential

/-!
# End to end: a client's request and its reply

`client/client.c`, `client_send_pid_message`, composed with the worker: the request is encoded by
the client's send path, decoded, handled and encoded by the worker, and decoded by the client's
receive path. The wire says that the capacity is four bytes, so the reply always takes the `realloc`
branch of `message_set_data`.

* `clientPidMessage` — the message the client makes for one pid, and its datagram, a well-formed
  request (`wellFormedRequest_datagram`, `requestPid_datagram`);
* `serve_pid_request` — what the worker sends back for a well-formed request, whatever it received
  and sent before;
* `request_reply` — the string the client ends up with.
-/

namespace CpuMonitor.Client

open CpuMonitor.Lib CpuMonitor.Network CpuMonitor.Server

/-! ## The request -/

/-- The message for one pid, up to `net_connection_send`. The status of `message_write` is not
looked at.
Source: `client.c`, `client_send_pid_message` (one round of the loop)
Kind: D
Fidelity: exact (`none` is a failed `message_create`) -/
def clientPidMessage (calls : MessageCreateCalls) (fresh : FreshMemory) (server : SockaddrIn)
    (pid : BitVec 32) : Option Message := do
  let m ← messageCreate calls fresh .pid (UInt32.ofNat sizeofPid)
  let m := { m with header := { m.header with
    type := MessageType.pid.code, length := UInt32.ofNat sizeofPid, ownerAddr := server } }
  let (_, m) ← messageWrite m (leBytes sizeofPid pid.toNat) (UInt32.ofNat sizeofPid)
  some m

/-- The message of a client for `pid`.
Source: `client.c`, `client_send_pid_message`
Kind: D -/
def pidMessage (server : SockaddrIn) (pid : BitVec 32) : Message :=
  ⟨⟨MessageType.pid.code, 4, server, 4⟩, leBytes sizeofPid pid.toNat⟩

/-- Once it is created, the message does not depend on the memory it was created in.
Source: `client.c`, `client_send_pid_message`
Kind: L -/
theorem clientPidMessage_eq (fresh : FreshMemory) (server : SockaddrIn) (pid : BitVec 32) :
    clientPidMessage .allOk fresh server pid = some (pidMessage server pid) := by
  have hcreate : messageCreate .allOk fresh .pid (UInt32.ofNat sizeofPid) =
      some ⟨⟨MessageType.pid.code, 0, fresh.ownerAddr, 4⟩, fresh.block sizeofPid⟩ := rfl
  have hwrite : messageWrite ⟨⟨MessageType.pid.code, 4, server, 4⟩, fresh.block sizeofPid⟩
      (leBytes sizeofPid pid.toNat) 4 = some _ :=
    messageWrite_of_le (length_leBytes _ _) (UInt32.le_refl _) (fresh.length_block _).ge
  rw [clientPidMessage, hcreate]
  refine (congrArg (fun r => r.bind fun r => some r.2) hwrite).trans ?_
  simp [pidMessage]

section datagram

variable (server : SockaddrIn) (pid : BitVec 32)

/-- The length in the header of a request is the size of a pid.
Source: `client.c`, `client_send_pid_message`
Kind: L -/
theorem toNat_length_pidMessage : (pidMessage server pid).header.length.toNat = sizeofPid := rfl

/-- The datagram of a request is a header and a pid.
Source: `client.c`, `client_send_pid_message`
Kind: L -/
theorem length_datagram_pidMessage :
    (pidMessage server pid).datagram.length = sizeofMessageHeader + sizeofPid :=
  Message.length_datagram (length_leBytes _ _).ge

/-- The header is found again at the front of the datagram.
Source: `client.c`, `client_send_pid_message`
Kind: L -/
theorem ownHeader_datagram_pidMessage :
    ownHeader (pidMessage server pid).datagram = (pidMessage server pid).header := by
  rw [ownHeader, Message.datagram, slice_append_self (MessageHeader.length_bytes _),
    headerOfBytes_bytes]

/-- A client's datagram is a well-formed request.
Source: `client.c`, `client_send_pid_message`
Kind: L -/
theorem wellFormedRequest_datagram : WellFormedRequest (pidMessage server pid).datagram := by
  rw [WellFormedRequest, ownHeader_datagram_pidMessage, length_datagram_pidMessage]
  exact ⟨rfl, rfl, rfl⟩

/-- The pid in a client's datagram is the one asked for, also a negative one.
Source: `client.c`, `client_send_pid_message`
Kind: L -/
theorem requestPid_datagram : requestPid (pidMessage server pid).datagram = pid := by
  have hbytes : slice (pidMessage server pid).datagram sizeofMessageHeader sizeofPid =
      leBytes sizeofPid pid.toNat := by
    have hself := slice_length (leBytes sizeofPid pid.toNat)
    rw [length_leBytes] at hself
    rw [Message.datagram, slice_append_skip (MessageHeader.length_bytes _).le,
      MessageHeader.length_bytes, Nat.sub_self, toNat_length_pidMessage,
      slice_slice (Nat.zero_add _).le]
    exact hself
  have hlt : pid.toNat < 256 ^ sizeofPid := pid.isLt
  rw [requestPid, hbytes, leValue_leBytes_of_lt hlt, BitVec.ofNat_toNat, BitVec.setWidth_eq]

end datagram

/-! ## The reply -/

/-- **What the worker sends back for a well-formed request**: a message of type
`MESSAGE_TYPE_PID` with the response for its pid, to the address it came from, whatever was
received before and whatever the journal says.
Source: `client.c`, `client_send_pid_message`; `server.c`, `worker_on_message`
Kind: P -/
theorem serve_pid_request {env : HandlerEnv} (hok : env.AllOk) {j : Journal} (hj : j.WellFormed)
    (s : UdpSocket) {p : Packet} (h : WellFormedRequest p.bytes) (fresh : FreshMemory) :
    ∃ r, serve env j s p fresh = some r ∧ r.sent = some (r.reply.datagram, p.source) ∧
      r.reply.header.type = MessageType.pid.code ∧
      r.reply.header.length.toNat = (responsePid env (requestPid p.bytes)).1.strlen + 1 ∧
      r.reply.header.length.toNat ≤ r.reply.data.length ∧
      slice r.reply.data 0 r.reply.header.length.toNat =
        (responsePid env (requestPid p.bytes)).1.stored := by
  have hbuf := maxPayload_le_requestOf s.incomingBuffer p fresh
  have hresponse := (responsePid env (requestPid p.bytes)).2
  have hwire : wireHeader (overlay s.incomingBuffer p.bytes) = ownHeader p.bytes :=
    wireHeader_overlay (by rw [h.1]; exact Nat.le_add_right _ _)
  have hle : (wireHeader (overlay s.incomingBuffer p.bytes)).length.toNat ≤ maxPayload := by
    rw [hwire, h.2.2]
    decide
  have hheader : (requestOf s.incomingBuffer p fresh).header =
      { ownHeader p.bytes with ownerAddr := p.source } := by
    rw [requestOf_of_le fresh hle, hwire]
  have htype : (requestOf s.incomingBuffer p fresh).header.type = MessageType.pid.code := by
    rw [hheader]
    exact h.2.1
  obtain ⟨j', hworker, -⟩ := workerOnMessage_of_reply
    (workerAnswer_of_pid hok htype (messagePid_of_wellFormed h))
    (Answer.reply_of_response hok (textBufferSize_le_maxPayload.trans hbuf)) hj
  have hsend := length_le_data_withText (m := requestOf s.incomingBuffer p fresh) hresponse
  have hlen := toNat_length_withText (m := requestOf s.incomingBuffer p fresh) hresponse
  refine ⟨_, serve_of_worker hworker fun _ => hsend, ?_, ?_, hlen, hsend,
    payload_withText hresponse⟩
  · have hmax : (responsePid env (requestPid p.bytes)).1.strlen + 1 ≤ maxPayload :=
      le_trans hresponse textBufferSize_le_maxPayload
    simp only [sentOf, hlen, hmax, if_true, ownerAddr_withText, hheader]
  · rw [type_withText, htype]

/-- The text a client should get for a pid: at most 255 characters of the formatted usage.
Source: `server.c`, `worker_on_message`
Kind: D -/
def replyText (usage : ℚ) : CString :=
  if usage < 0 then .lit "not found" nulFree_notFound
  else .snprintf textBufferSize (.ofRat usage)

/-- The worker's answer to a pid is the text of its usage.
Source: `server.c`, `worker_on_message`
Kind: L -/
theorem responsePid_eq_replyText (env : HandlerEnv) (pid : BitVec 32) :
    (responsePid env pid).1 = replyText (env.usage pid) := by
  unfold responsePid replyText
  split_ifs <;> rfl

/-- **End to end.** For every pid and every answer of the process table, whatever the worker and the
client have received and sent before (the buffers of their sockets are arbitrary): the client's
datagram is sent to the server's address, served, and answered to the client's address; and the
answer is decoded into a message of type `MESSAGE_TYPE_PID` whose data within its length is a string
with its only NUL at the end, `"not found"` if the usage is negative and else the formatted usage of
that pid.
Source: `client.c`, `client_send_pid_message`; `net_connection.c`; `server.c`, `worker_on_message`
Kind: P
Hyps: `snprintf` and `realloc` succeed -/
theorem request_reply (pid : BitVec 32) (env : HandlerEnv) (hok : env.AllOk) (j : Journal)
    (hj : j.WellFormed) (worker client client' : UdpSocket) (clientAddr serverAddr : SockaddrIn)
    (fresh₁ fresh₂ fresh₃ : FreshMemory) :
    ∃ m s r bytes new m',
      clientPidMessage .allOk fresh₁ serverAddr pid = some m ∧
      sendMessage client m = some (s, some (m.datagram, serverAddr)) ∧
      serve env j worker ⟨m.datagram, clientAddr⟩ fresh₂ = some r ∧
      r.sent = some (bytes, clientAddr) ∧
      messageCreate .allOk fresh₃ .none receiveCapacity = some new ∧
      receiveMessage (client'.recvfrom ⟨bytes, serverAddr⟩) new = some m' ∧
      m'.header.type = MessageType.pid.code ∧
      slice m'.data 0 m'.header.length.toNat = (replyText (env.usage pid)).stored ∧
      ∀ i < m'.header.length.toNat, m'.data[i]? = some 0 ↔ i = m'.header.length.toNat - 1 := by
  have hpid : (responsePid env (requestPid (pidMessage serverAddr pid).datagram)).1 =
      replyText (env.usage pid) := by
    rw [requestPid_datagram, responsePid_eq_replyText]
  obtain ⟨s, hsend⟩ := @sendMessage_of_le client (pidMessage serverAddr pid)
    sizeofPid_le_maxPayload (length_leBytes _ _).ge
  obtain ⟨r, hserve, hsent, htype, hlen, hdata, hpayload⟩ := @serve_pid_request env hok j hj
    worker ⟨(pidMessage serverAddr pid).datagram, clientAddr⟩
    (wellFormedRequest_datagram serverAddr pid) fresh₂
  have hmax : r.reply.header.length.toNat ≤ maxPayload := by
    rw [hlen]
    exact le_trans (responsePid env _).2 textBufferSize_le_maxPayload
  rw [hpid] at hlen hpayload
  obtain ⟨new, hnew, hblock⟩ := messageCreate_receive fresh₃
  have hroom : maxPayload ≤ new.data.length := hblock ▸ maxPayload_le_block fresh₃
  have hbuilt := built_datagram client'.incomingBuffer serverAddr new.data hmax hdata
  rw [hpayload] at hbuilt
  refine ⟨_, s, r, _, new, _, clientPidMessage_eq fresh₁ serverAddr pid, hsend, hserve, hsent,
    hnew, (receiveMessage_eq hroom).trans (congrArg some hbuilt), htype, ?_, ?_⟩
  · exact slice_append_self (by rw [CString.length_stored, hlen])
  · -- within its length the data is the stored string
    intro i hi
    have hi' : i < (replyText (env.usage pid)).stored.length := by
      rw [CString.length_stored]
      exact hi.trans_eq hlen
    simp only [List.getElem?_append_left hi', List.getElem?_eq_getElem hi', Option.some.injEq,
      CString.stored_eq_zero_iff, hlen, Nat.add_sub_cancel]

/-- A worker that has answered a request for the process 1, and then gets one for the process `-1`:
that is not found.
Source: `client.c`, `client_send_pid_message`; `server.c`, `worker_on_message`
Kind: C -/
theorem request_reply_not_found :
    ∃ (j : Journal) (ls : List (Label HandlerEnv)) (s : Conn (MessageQueue Tagged) Journal)
      (m m' : Message) (r : Served) (bytes : List UInt8),
      Run (step ringOps workerOnMessage) (fun _ _ => True)
        (Conn.init (udpSocketCreate ⟨0, 0, 0, 0⟩) emptyQueue emptyQueue j) ls s ∧
      s.sent.length = 1 ∧
      serve { quietEnv with usage := fun _ => -1 } s.store s.socket
        ⟨m.datagram, ⟨2, 80, 1, 0⟩⟩ zeroMemory = some r ∧
      r.sent = some (bytes, ⟨2, 80, 1, 0⟩) ∧
      slice m'.data 0 m'.header.length.toNat = (replyText (-1)).stored := by
  obtain ⟨j, hj⟩ := exists_wellFormed
  -- the earlier request, served by the three threads
  obtain ⟨r₀, hserve₀, hsent₀, -⟩ := @serve_pid_request quietEnv quietEnv_allOk j hj
    (udpSocketCreate ⟨0, 0, 0, 0⟩) ⟨(pidMessage ⟨2, 81, 1, 0⟩ 1).datagram, ⟨2, 80, 1, 0⟩⟩
    (wellFormedRequest_datagram _ _) zeroMemory
  have hready : (Conn.init (udpSocketCreate ⟨0, 0, 0, 0⟩) emptyQueue emptyQueue j).Quiescent :=
    .init (by decide) (by decide) messageQueueCreate_emptyQueue messageQueueCreate_emptyQueue _ _
  obtain ⟨s, hexec, -, hstore, -, -, hsent⟩ := exec_serve hready hserve₀
  obtain ⟨reply, hwell⟩ := serve_eq quietEnv (udpSocketCreate ⟨0, 0, 0, 0⟩).incomingBuffer
    ⟨(pidMessage ⟨2, 81, 1, 0⟩ 1).datagram, ⟨2, 80, 1, 0⟩⟩ zeroMemory
  obtain ⟨j', hserve', hj'⟩ := hwell j (udpSocketCreate ⟨0, 0, 0, 0⟩) hj rfl
  have hjournal : s.store.WellFormed := by
    rw [hstore, ← Option.some.inj (hserve'.symm.trans hserve₀)]
    exact hj'
  obtain ⟨m, -, r, bytes, -, m', -, -, hserve, hsent', -, -, -, hpayload, -⟩ :=
    request_reply (-1) { quietEnv with usage := fun _ => -1 } ⟨rfl, rfl, rfl⟩ s.store hjournal
      s.socket (udpSocketCreate ⟨0, 0, 0, 0⟩) (udpSocketCreate ⟨0, 0, 0, 0⟩) ⟨2, 80, 1, 0⟩
      ⟨2, 81, 1, 0⟩ zeroMemory zeroMemory zeroMemory
  refine ⟨j, _, s, m, m', r, bytes, Run.of_exec hexec, ?_, hserve, hsent', hpayload⟩
  rw [hsent, hsent₀]
  rfl

end CpuMonitor.Client
