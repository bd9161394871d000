import CpuMonitor.Client.Node

/-!
# What goes over the wire between a client and a worker

The two kinds of datagrams of the deployed system: a client's request for a pid, and a worker's
answer to it. Neither of them depends on what the reused buffers held before.

* `IsRequest` — the datagram of a request. The message that a worker decodes from it has the type
  `MESSAGE_TYPE_PID` and the pid asked for (`decoded_request`);
* `Answers` — what a worker makes of such a message: the response for the pid, or, if a library call
  failed, the request itself (`answers_of_workerHandler`);
* `payload_of_built` — the message that a client decodes from the datagram of an answer has its type
  and its payload, so it is an answer too, and a response is printed as it is
  (`Answers.printfString_eq`).
-/

namespace CpuMonitor.Cluster

open CpuMonitor.Lib CpuMonitor.Network CpuMonitor.Server CpuMonitor.Client

/-! ## Requests -/

/-- The datagram of a request for `pid`.
Source: none: infrastructure
Kind: D -/
def IsRequest (server : SockaddrIn) (pid : BitVec 32) (bytes : List UInt8) : Prop :=
  bytes = (pidMessage server pid).datagram

/-- The bytes that a message declares as its data.
Source: none: infrastructure
Kind: D -/
def payload (m : Message) : List UInt8 := slice m.data 0 m.header.length.toNat

section request

variable {server owner : SockaddrIn} {pid : BitVec 32} {bytes : List UInt8} {m : Message}
  {buffer : SocketBuffer} {fresh : FreshMemory}

/-- **A request is decoded as what it is**, over any earlier contents of the buffers.
Source: `client.c`, `client_send_pid_message`; `server.c`, `worker_on_message`
Kind: P -/
theorem decoded_request (h : IsRequest server pid bytes)
    (hm : m = built (overlay buffer bytes) owner (fresh.block udpSocketBufferSize)) :
    m.header.type = MessageType.pid.code ∧ messagePid m = some pid ∧
      payload m = leBytes sizeofPid pid.toNat ∧ maxPayload ≤ m.data.length := by
  have hfour : (pidMessage server pid).header.length.toNat = sizeofPid := rfl
  have hbuilt := @built_datagram buffer (pidMessage server pid) owner
    (fresh.block udpSocketBufferSize) sizeofPid_le_maxPayload (length_leBytes _ _).ge
  have hself : slice (leBytes sizeofPid pid.toNat) 0 sizeofPid = leBytes sizeofPid pid.toNat := by
    have hslice := slice_length (leBytes sizeofPid pid.toNat)
    rwa [length_leBytes] at hslice
  rw [show (pidMessage server pid).data = leBytes sizeofPid pid.toNat from rfl, hfour, hself]
    at hbuilt
  have hsize : maxPayload ≤ m.data.length := by
    rw [hm]
    have hblock := maxPayload_le_block fresh
    exact hblock.trans_eq (length_data_builtData hblock).symm
  rw [h, hbuilt] at hm
  have hpid : slice m.data 0 sizeofPid = leBytes sizeofPid pid.toNat := by
    rw [hm]
    exact slice_append_self (length_leBytes _ _)
  refine ⟨by rw [hm]; rfl, ?_, ?_, hsize⟩
  · have hlt : pid.toNat < 256 ^ sizeofPid := pid.isLt
    rw [messagePid_eq (sizeofPid_le_maxPayload.trans hsize), hpid, leValue_leBytes_of_lt hlt,
      BitVec.ofNat_toNat, BitVec.setWidth_eq]
  · have hlength : m.header.length.toNat = sizeofPid := by
      rw [hm]
      rfl
    rw [payload, hlength, hpid]

end request

/-! ## Answers -/

/-- A message that answers the request for `pid`, made with the system's answers `env`: it holds the
response, or, after a failed `snprintf` or `realloc`, still the request.
Source: none: infrastructure
Kind: D -/
structure Answers (env : HandlerEnv) (pid : BitVec 32) (m : Message) : Prop where
  type_eq : m.header.type = MessageType.pid.code
  payload_eq : payload m = (responsePid env pid).1.stored ∨
    ¬ env.AllOk ∧ payload m = leBytes sizeofPid pid.toNat

/-- What the worker function gets from the system: the journal is one mapping that all workers
write to, so a call can find it in any state.
Source: `server.c`, `worker_on_message`
Kind: D -/
abbrev WorkerEnv : Type := HandlerEnv × Journal

/-- `worker_on_message` of a worker that shares the journal with others.
Source: `server.c`, `worker_on_message`
Kind: D -/
def workerHandler : Handler WorkerEnv Unit :=
  fun env _ m => (workerOnMessage env.1 env.2 m).map fun r => (r.1, ())

/-- A call of the handler in the cluster is a call of `worker_on_message`.
Source: `client.c`, `client_send_pid_message`; `server.c`, `worker_on_message`
Kind: L -/
theorem workerHandler_eq_some {env : WorkerEnv} {m m' : Message} {store store' : Unit}
    (h : workerHandler env store m = some (m', store')) :
    ∃ j', workerOnMessage env.1 env.2 m = some (m', j') := by
  obtain ⟨⟨m₁, j'⟩, hcall, heq⟩ := Option.map_eq_some_iff.mp h
  cases heq
  exact ⟨j', hcall⟩

/-- The worker function keeps the address of a message.
Source: `client.c`, `client_send_pid_message`; `server.c`, `worker_on_message`
Kind: L -/
theorem ownerAddr_of_workerHandler (env : WorkerEnv) (store : Unit) (m m' : Message)
    (store' : Unit) (h : workerHandler env store m = some (m', store')) :
    m'.header.ownerAddr = m.header.ownerAddr := by
  obtain ⟨j', hcall⟩ := workerHandler_eq_some h
  exact ownerAddr_of_workerOnMessage hcall

section answer

variable {env : HandlerEnv} {pid : BitVec 32} {m m' : Message}

/-- What the handler decides about a request for `pid`, whatever calls fail: the message stays as it
is, and no other text than the response is to be put into it.
Source: `client.c`, `client_send_pid_message`; `server.c`, `worker_on_message`
Kind: L -/
theorem workerAnswer_request (htype : m.header.type = MessageType.pid.code)
    (hpid : messagePid m = some pid) {a : Answer} (h : workerAnswer env m = some a) :
    a.message = m ∧
      (a.response = some (responsePid env pid) ∨ ¬ env.AllOk ∧ a.response = none) := by
  have hne : MessageType.pid.code ≠ MessageType.none.code := by decide
  by_cases hok : env.AllOk
  · rw [workerAnswer_of_pid hok htype hpid] at h
    cases h
    exact ⟨rfl, .inl rfl⟩
  · unfold workerAnswer at h
    rw [htype, if_neg hne, if_pos rfl, hpid, Option.bind_eq_bind, Option.bind_some] at h
    unfold responsePid
    split_ifs at h ⊢ with husage hrecord hrecord hreply
    all_goals cases h
    · exact ⟨rfl, .inr ⟨hok, rfl⟩⟩
    · exact ⟨rfl, .inl rfl⟩
    · exact ⟨rfl, .inr ⟨hok, rfl⟩⟩
    · exact ⟨rfl, .inr ⟨hok, rfl⟩⟩
    · exact ⟨rfl, .inl rfl⟩

/-- A message with the response for `pid` answers the request.
Source: `client.c`, `client_send_pid_message`; `server.c`, `worker_on_message`
Kind: L -/
theorem answers_withText (htype : m.header.type = MessageType.pid.code) :
    Answers env pid (withText m (responsePid env pid).1) :=
  ⟨type_withText.trans htype, .inl (payload_withText (responsePid env pid).2)⟩

/-- **A worker answers a request**, whatever the system answers.
Source: `client.c`, `client_send_pid_message`; `server.c`, `worker_on_message`
Kind: P -/
theorem answers_of_workerHandler {e : WorkerEnv} (htype : m.header.type = MessageType.pid.code)
    (hpid : messagePid m = some pid) (hpayload : payload m = leBytes sizeofPid pid.toNat)
    (hdata : maxPayload ≤ m.data.length) {store store' : Unit}
    (h : workerHandler e store m = some (m', store')) : Answers e.1 pid m' := by
  obtain ⟨j', hcall⟩ := workerHandler_eq_some h
  obtain ⟨a, hanswer, hreply⟩ := answer_of_workerOnMessage hcall
  obtain ⟨hmessage, hresponse⟩ := workerAnswer_request htype hpid hanswer
  unfold Answer.reply at hreply
  rcases hresponse with hresponse | ⟨hfailed, hresponse⟩
  · simp only [hresponse, hmessage] at hreply
    obtain ⟨m₁, hset, hm₁⟩ := messageSetData_eq e.1 (responsePid e.1 pid).2
      (textBufferSize_le_maxPayload.trans hdata)
    obtain rfl := Option.some.inj (hset.symm.trans hreply)
    rcases hm₁ with rfl | ⟨hrealloc, rfl⟩
    · exact answers_withText htype
    · -- `realloc` failed: the request goes back as it came
      refine ⟨htype, .inr ⟨?_, hpayload⟩⟩
      intro hok
      rw [hok.realloc] at hrealloc
      cases hrealloc
  · simp only [hresponse, hmessage, Option.some.injEq] at hreply
    subst hreply
    exact ⟨htype, .inr ⟨hfailed, hpayload⟩⟩

end answer

/-! ## Answers on the wire -/

section received

variable {env : HandlerEnv} {pid : BitVec 32} {m : Message} {buffer : SocketBuffer}
  {owner : SockaddrIn} {fresh : FreshMemory}

/-- **A datagram is decoded as the message it was made from**: type and payload are the same, and
the payload comes first in the data, over any earlier contents of the buffers.
Source: `client.c`, `client_send_pid_message`; `server.c`, `worker_on_message`
Kind: P -/
theorem payload_of_built {m₀ : Message} (hfits : Fits m₀)
    (hm : m = built (overlay buffer m₀.datagram) owner (fresh.block udpSocketBufferSize)) :
    m.header.type = m₀.header.type ∧ payload m = payload m₀ ∧
      ∃ rest, m.data = payload m ++ rest := by
  rw [built_datagram buffer owner _ hfits.inDatagram hfits.inBlock] at hm
  have hlen : (slice m₀.data 0 m₀.header.length.toNat).length = m₀.header.length.toNat :=
    length_slice (by rw [Nat.zero_add]; exact hfits.inBlock)
  have hsame : payload m = payload m₀ := by
    rw [payload, hm]
    exact slice_append_self hlen
  refine ⟨by rw [hm], hsame, (fresh.block udpSocketBufferSize).drop m₀.header.length.toNat, ?_⟩
  rw [hsame, hm]
  rfl

/-- A message with the type and the payload of an answer is that answer.
Source: `client.c`, `client_send_pid_message`; `server.c`, `worker_on_message`
Kind: L -/
theorem Answers.congr {m₀ : Message} (h : Answers env pid m₀)
    (htype : m.header.type = m₀.header.type) (hpayload : payload m = payload m₀) :
    Answers env pid m :=
  ⟨htype.trans h.type_eq, by rw [hpayload]; exact h.payload_eq⟩

/-- A response is printed as it is: its NUL is in the buffer, and nothing behind it is printed.
Source: `client.c`, `client_send_pid_message`; `server.c`, `worker_on_message`
Kind: P -/
theorem Answers.printfString_eq (h : Answers env pid m) (hok : env.AllOk)
    (hdata : ∃ rest, m.data = payload m ++ rest) :
    printfString m.data = some (responsePid env pid).1.bytes := by
  obtain ⟨rest, hdata⟩ := hdata
  rcases h.payload_eq with hpayload | ⟨hfailed, -⟩
  · rw [hdata, hpayload, printfString_stored]
  · exact absurd hok hfailed

end received

end CpuMonitor.Cluster
