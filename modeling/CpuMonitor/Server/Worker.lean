import CpuMonitor.Lib.Text
import CpuMonitor.Network.NetConnection
import CpuMonitor.Server.Journal

/-!
# The worker's message handler

`server/server.c`: `worker_on_message` logs a request in the journal and turns the message into
its own reply, `message_set_data` puts the reply's text into it.

* **The environment of a call** `HandlerEnv`: the time string, the answers of
  `get_process_cpu_usage`, and which of the library calls succeed.
* **The code's model** `messageSetData`, `workerAnswer` (which record and which reply a message
  gets), `workerOnMessage` (writes the one and sets the other).
* **What it computes**: `Message.withText` (`messageSetData_eq`); a handler call on a message with
  a whole receive buffer always returns (`workerOnMessage_eq`), keeps the owner, and leaves a
  message that the send path can read (`Sendable`).
-/

namespace CpuMonitor.Server

open CpuMonitor.Lib CpuMonitor.Network

/-! ## The environment of a call -/

/-- `sizeof(buffer)` in `worker_on_message`.
Source: `server.c`, `worker_on_message`
Kind: D -/
def textBufferSize : ℕ := 256

/-- `sizeof(time_str)` in `worker_on_message`.
Source: `server.c`, `worker_on_message`
Kind: D -/
def timeStrSize : ℕ := 64

/-- What one call of `worker_on_message` gets from the system.
Source: `server.c`, `worker_on_message`
Kind: D -/
structure HandlerEnv where
  /-- `time_str` after `strftime`. -/
  timeStr : CString
  timeStr_lt : timeStr.strlen < timeStrSize
  /-- The number `get_process_cpu_usage` returns for each pid. -/
  usage : BitVec 32 → ℚ
  /-- The `snprintf` of the record does not return a negative number. -/
  snprintfRecord : Bool
  /-- Nor does the one of the usage reply. -/
  snprintfReply : Bool
  /-- `realloc` succeeds. -/
  realloc : Bool
  /-- The bytes `realloc` adds to a block it grows. -/
  grown : ℕ → UInt8
  /-- The `pthread_*` calls of `journal_write`. -/
  journalCalls : JournalCalls

/-- `snprintf` and `realloc` succeed.
Source: none: infrastructure
Kind: D -/
structure HandlerEnv.AllOk (env : HandlerEnv) : Prop where
  snprintfRecord : env.snprintfRecord = true
  snprintfReply : env.snprintfReply = true
  realloc : env.realloc = true

/-! ## The texts -/

/-- A string that fits in the handler's `buffer`.
Source: `server.c`, `worker_on_message`
Kind: D -/
abbrev BufferText : Type := { text : CString // text.strlen < textBufferSize }

/-- `snprintf(buffer, sizeof(buffer), …)`.
Source: `server.c`, `worker_on_message`
Kind: D -/
def printText (text : CString) : BufferText :=
  ⟨.snprintf textBufferSize text, CString.strlen_snprintf_lt (by decide) text⟩

/-- `SERVER_RESPONSE_CPU_INVALID`.
Source: `server.c`, `worker_on_message`
Kind: D -/
def responseInvalid : BufferText := ⟨.lit "invalid" (by simp [ascii]), by decide⟩

/-- The text has no terminator in it.
Source: `server.c`, `worker_on_message`
Kind: L -/
theorem nulFree_notFound : ∀ b ∈ ascii "not found", b ≠ 0 := by simp [ascii]

/-- `SERVER_RESPONSE_CPU_NOT_FOUND`.
Source: `server.c`, `worker_on_message`
Kind: D -/
def responseNotFound : BufferText := ⟨.lit "not found" nulFree_notFound, by decide⟩

section texts

variable (env : HandlerEnv) (pid : BitVec 32)

/-- `"%s: invalid request\n"`.
Source: `server.c`, `worker_on_message`
Kind: D -/
def recordInvalid : BufferText :=
  printText (.concat [env.timeStr, .lit ": invalid request\n" (by simp [ascii])])

/-- `"%s: %d not found\n"`.
Source: `server.c`, `worker_on_message`
Kind: D -/
def recordNotFound : BufferText :=
  printText (.concat [env.timeStr, .lit ": " (by simp [ascii]), .ofInt pid.toInt,
    .lit " not found\n" (by simp [ascii])])

/-- `"%s%s%d%s%f\n"` with `": "` and `" %"`.
Source: `server.c`, `worker_on_message`
Kind: D -/
def recordUsage : BufferText :=
  printText (.concat [env.timeStr, .lit ": " (by simp [ascii]), .ofInt pid.toInt,
    .lit " %" (by simp [ascii]), .ofRat (env.usage pid), .lit "\n" (by simp [ascii])])

/-- `"%f"`.
Source: `server.c`, `worker_on_message`
Kind: D -/
def responseUsage : BufferText := printText (.ofRat (env.usage pid))

end texts

/-! ## The code's model -/

/-- A block of `n` bytes after `realloc`: the old bytes as far as they fit, then new ones.
Source: `server.c`, `message_set_data`
Kind: D -/
def reallocBlock (grown : ℕ → UInt8) (block : List UInt8) (n : ℕ) : List UInt8 :=
  block.take n ++ (List.range (n - block.length)).map grown

/-- The test is on the header's capacity; when it fails, the block is resized to exactly the
string, also when it was larger.
Source: `server.c`, `message_set_data`
Kind: D
Fidelity: exact -/
def messageSetData (env : HandlerEnv) (m : Message) (data : CString) : Option Message :=
  if m.header.capacity.toNat ≥ data.strlen + 1 then do
    let (_, m') ← messageWrite m data.stored (UInt32.ofNat (data.strlen + 1))
    some m'
  else if !env.realloc then some m
  else do
    let block ← store (reallocBlock env.grown m.data (data.strlen + 1)) 0 data.stored
    some {
      header := { m.header with
        capacity := UInt32.ofNat (data.strlen + 1), length := UInt32.ofNat (data.strlen + 1) }
      data := block }

/-- `*((int*)message->data)`.
Source: `server.c`, `worker_on_message`
Kind: D -/
def messagePid (m : Message) : Option (BitVec 32) := do
  let bytes ← load m.data 0 sizeofPid
  some (BitVec.ofNat 32 (leValue bytes))

/-- What the handler decides about a message: the message with its new type, the record for
`journal_write` and the text for `message_set_data`; a failed `snprintf` returns before the one
it was for.
Source: `server.c`, `worker_on_message`
Kind: D -/
structure Answer where
  message : Message
  record : Option BufferText
  response : Option BufferText

/-- Source: `server.c`, `worker_on_message` (up to the calls of `journal_write` and
`message_set_data`). Kind: D
Fidelity: exact (a type that is neither `NONE` nor `PID` has no branch) -/
def workerAnswer (env : HandlerEnv) (m : Message) : Option Answer :=
  if m.header.type = MessageType.none.code then
    let m' := { m with header := { m.header with type := MessageType.pid.code } }
    if !env.snprintfRecord then some ⟨m', none, none⟩
    else some ⟨m', some (recordInvalid env), some responseInvalid⟩
  else if m.header.type = MessageType.pid.code then do
    let pid ← messagePid m
    if env.usage pid < 0 then
      if !env.snprintfRecord then some ⟨m, none, none⟩
      else some ⟨m, some (recordNotFound env pid), some responseNotFound⟩
    else if !env.snprintfRecord then some ⟨m, none, none⟩
    else if !env.snprintfReply then some ⟨m, some (recordUsage env pid), none⟩
    else some ⟨m, some (recordUsage env pid), some (responseUsage env pid)⟩
  else some ⟨m, none, none⟩

/-- The record is written with its terminator; the status of the write is not looked at.
Source: `journal.c`, `journal_write`
Kind: D -/
def Answer.log (env : HandlerEnv) (a : Answer) (j : Journal) : Option Journal :=
  match a.record with
  | none => some j
  | some record => (journalWrite env.journalCalls j record.1.stored).map Prod.snd

/-- The text, if there is one, is put into the message.
Source: `server.c`, `message_set_data`
Kind: D -/
def Answer.reply (env : HandlerEnv) (a : Answer) : Option Message :=
  match a.response with
  | none => some a.message
  | some response => messageSetData env a.message response.1

/-- The message the handler leaves and the journal.
Source: `server.c`, `worker_on_message`
Kind: D -/
def workerOnMessage (env : HandlerEnv) (j : Journal) (m : Message) :
    Option (Message × Journal) := do
  let a ← workerAnswer env m
  let j' ← a.log env j
  let m' ← a.reply env
  some (m', j')

/-! ## Setting the text of a message -/

/-- The message after `message_set_data`: the text with its terminator is its payload. If the
capacity was enough, the block keeps its size and the bytes behind the text.
Source: `server.c`, `message_set_data`
Kind: D -/
def withText (m : Message) (text : CString) : Message :=
  if text.strlen + 1 ≤ m.header.capacity.toNat then
    { header := { m.header with length := UInt32.ofNat (text.strlen + 1) }
      data := text.stored ++ m.data.drop (text.strlen + 1) }
  else
    { header := { m.header with
        capacity := UInt32.ofNat (text.strlen + 1), length := UInt32.ofNat (text.strlen + 1) }
      data := text.stored }

section withText

variable {m : Message} {text : CString}

/-- A text keeps the type of its message.
Source: `server.c`, `message_set_data`
Kind: L -/
@[simp] theorem type_withText : (withText m text).header.type = m.header.type := by
  unfold withText
  split_ifs <;> rfl

/-- It keeps the address.
Source: `server.c`, `message_set_data`
Kind: L -/
@[simp] theorem ownerAddr_withText : (withText m text).header.ownerAddr = m.header.ownerAddr := by
  unfold withText
  split_ifs <;> rfl

/-- The length in the header counts the terminator, if it does not wrap around.
Source: `server.c`, `message_set_data`
Kind: L -/
theorem toNat_length_of_lt (hlt : text.strlen + 1 < 2 ^ 32) :
    (withText m text).header.length.toNat = text.strlen + 1 := by
  have hlen : (withText m text).header.length = UInt32.ofNat (text.strlen + 1) := by
    unfold withText
    split_ifs <;> rfl
  rw [hlen, UInt32.toNat_ofNat_of_lt' hlt]

/-- A text of the handler is short.
Source: `server.c`, `message_set_data`
Kind: L -/
theorem strlen_succ_lt (h : text.strlen < textBufferSize) : text.strlen + 1 < 2 ^ 32 :=
  lt_of_le_of_lt h (by decide)

/-- A text from the buffer does not make it wrap around.
Source: `server.c`, `message_set_data`
Kind: L -/
theorem toNat_length_withText (h : text.strlen < textBufferSize) :
    (withText m text).header.length.toNat = text.strlen + 1 :=
  toNat_length_of_lt (strlen_succ_lt h)

/-- A capacity that is enough is kept.
Source: `server.c`, `message_set_data`
Kind: L -/
theorem capacity_withText (h : text.strlen + 1 ≤ m.header.capacity.toNat) :
    (withText m text).header.capacity = m.header.capacity := by
  rw [withText, if_pos h]

/-- The buffer begins with the text and its terminator.
Source: `server.c`, `message_set_data`
Kind: L -/
theorem slice_withText : slice (withText m text).data 0 (text.strlen + 1) = text.stored := by
  rw [← CString.length_stored]
  unfold withText
  split_ifs
  · exact slice_append_self rfl
  · exact slice_length _

/-- They are the payload.
Source: `server.c`, `message_set_data`
Kind: L -/
theorem payload_withText (h : text.strlen < textBufferSize) :
    slice (withText m text).data 0 (withText m text).header.length.toNat = text.stored := by
  rw [toNat_length_withText h]
  exact slice_withText

/-- The data has room for the text.
Source: `server.c`, `message_set_data`
Kind: L -/
theorem length_le_data_withText (h : text.strlen < textBufferSize) :
    (withText m text).header.length.toNat ≤ (withText m text).data.length := by
  rw [toNat_length_withText h, ← CString.length_stored]
  unfold withText
  split_ifs
  · rw [List.length_append]
    exact Nat.le_add_right _ _
  · exact le_rfl

/-- **`message_set_data`** on a message whose block has room for a text within its capacity: it
never leaves the block, and it sets the text unless it needs `realloc` and `realloc` fails.
Source: `server.c`, `message_set_data`
Kind: P -/
theorem messageSetData_of_lt (env : HandlerEnv) (hlt : text.strlen + 1 < 2 ^ 32)
    (hdata : text.strlen + 1 ≤ m.header.capacity.toNat → text.strlen + 1 ≤ m.data.length) :
    messageSetData env m text =
      some (if text.strlen + 1 ≤ m.header.capacity.toNat ∨ env.realloc = true then withText m text
        else m) := by
  have hnat : (UInt32.ofNat (text.strlen + 1)).toNat = text.strlen + 1 :=
    UInt32.toNat_ofNat_of_lt' hlt
  unfold messageSetData withText
  by_cases hcap : text.strlen + 1 ≤ m.header.capacity.toNat
  · have hwrite : messageWrite m text.stored (UInt32.ofNat (text.strlen + 1)) = some _ :=
      messageWrite_of_le (by rw [hnat, CString.length_stored])
        (by rw [UInt32.le_iff_toNat_le, hnat]; exact hcap) (by rw [hnat]; exact hdata hcap)
    rw [CString.length_stored] at hwrite
    rw [if_pos hcap, if_pos (.inl hcap), if_pos hcap, hwrite]
    rfl
  · cases hrealloc : env.realloc with
    | false => simp [hcap]
    | true =>
        -- the block is resized to exactly the string, which fills it
        have hblock : (reallocBlock env.grown m.data (text.strlen + 1)).length =
            text.stored.length := by
          simp [reallocBlock]
          omega
        have hstore : store (reallocBlock env.grown m.data (text.strlen + 1)) 0 text.stored =
            some text.stored := by
          rw [store_of_le (by omega), splice_zero, List.drop_of_length_le hblock.le,
            List.append_nil]
        simp [hcap, hstore]

/-- A block with room for any text of the handler.
Source: `server.c`, `message_set_data`
Kind: L -/
theorem messageSetData_eq (env : HandlerEnv) (h : text.strlen < textBufferSize)
    (hdata : textBufferSize ≤ m.data.length) :
    ∃ m', messageSetData env m text = some m' ∧
      (m' = withText m text ∨ env.realloc = false ∧ m' = m) := by
  refine ⟨_, messageSetData_of_lt env (strlen_succ_lt h) (fun _ => by omega), ?_⟩
  split_ifs with hset
  · exact .inl rfl
  · rw [not_or, Bool.not_eq_true] at hset
    exact .inr ⟨hset.2, rfl⟩

end withText

/-! ## The handler -/

/-- The send path can read the payload of the message, unless it is too long to be sent at all.
Source: `net_connection.c`, `net_connection_write_data`
Kind: D -/
def Sendable (m : Message) : Prop :=
  m.header.length.toNat ≤ maxPayload → m.header.length.toNat ≤ m.data.length

/-- Every text from the buffer fits into a datagram.
Source: `net_connection.c`, `net_connection_write_data`
Kind: L -/
theorem textBufferSize_le_maxPayload : textBufferSize ≤ maxPayload := by decide

/-- The pid is read from the first four bytes.
Source: `server.c`, `worker_on_message`
Kind: L -/
theorem messagePid_eq {m : Message} (hdata : sizeofPid ≤ m.data.length) :
    messagePid m = some (BitVec.ofNat 32 (leValue (slice m.data 0 sizeofPid))) := by
  rw [messagePid, load_of_le (by omega)]
  rfl

/-- A pid fits into a datagram.
Source: `net_connection.c`, `net_connection_write_data`
Kind: L -/
theorem sizeofPid_le_maxPayload : sizeofPid ≤ maxPayload := by decide

/-- What the handler decides about a message that has room for a pid: only the type of the message
can change.
Source: `server.c`, `worker_on_message`
Kind: L -/
theorem workerAnswer_eq (env : HandlerEnv) {m : Message} (hdata : sizeofPid ≤ m.data.length) :
    ∃ a, workerAnswer env m = some a ∧
      ∃ type, a.message = { m with header := { m.header with type := type } } := by
  unfold workerAnswer
  rw [messagePid_eq hdata, Option.bind_eq_bind, Option.bind_some]
  split_ifs <;> exact ⟨_, rfl, _, rfl⟩

/-! ## The answers when every call succeeds -/

section answers

variable {env : HandlerEnv} {m : Message}

/-- The record for a pid.
Source: `server.c`, `worker_on_message`
Kind: D -/
def recordPid (env : HandlerEnv) (pid : BitVec 32) : BufferText :=
  if env.usage pid < 0 then recordNotFound env pid else recordUsage env pid

/-- The response for a pid.
Source: `server.c`, `worker_on_message`
Kind: D -/
def responsePid (env : HandlerEnv) (pid : BitVec 32) : BufferText :=
  if env.usage pid < 0 then responseNotFound else responseUsage env pid

/-- The answer to a message of type `MESSAGE_TYPE_NONE`.
Source: `server.c`, `worker_on_message`
Kind: L -/
theorem workerAnswer_of_none (hok : env.AllOk) (htype : m.header.type = MessageType.none.code) :
    workerAnswer env m = some ⟨{ m with header := { m.header with type := MessageType.pid.code } },
      some (recordInvalid env), some responseInvalid⟩ := by
  simp [workerAnswer, htype, hok.snprintfRecord]

/-- The answer to a message with a pid.
Source: `server.c`, `worker_on_message`
Kind: L -/
theorem workerAnswer_of_pid (hok : env.AllOk) (htype : m.header.type = MessageType.pid.code)
    {pid : BitVec 32} (hpid : messagePid m = some pid) :
    workerAnswer env m = some ⟨m, some (recordPid env pid), some (responsePid env pid)⟩ := by
  have hne : MessageType.pid.code ≠ MessageType.none.code := by decide
  unfold workerAnswer recordPid responsePid
  rw [hpid, htype, if_neg hne, if_pos rfl, Option.bind_eq_bind, Option.bind_some,
    hok.snprintfRecord, hok.snprintfReply]
  split_ifs <;> first | rfl | simp_all

/-- A message of any other type gets no record and no response.
Source: `server.c`, `worker_on_message`
Kind: L -/
theorem workerAnswer_of_other (hnone : m.header.type ≠ MessageType.none.code)
    (hpid : m.header.type ≠ MessageType.pid.code) :
    workerAnswer env m = some ⟨m, none, none⟩ := by
  rw [workerAnswer, if_neg hnone, if_neg hpid]

/-- The reply of an answer with a response.
Source: `server.c`, `message_set_data`
Kind: L -/
theorem Answer.reply_of_response (hok : env.AllOk) {m₁ : Message} {record response : BufferText}
    (hdata : textBufferSize ≤ m₁.data.length) :
    (⟨m₁, some record, some response⟩ : Answer).reply env = some (withText m₁ response.1) := by
  obtain ⟨m', hset, rfl | ⟨hrealloc, -⟩⟩ := messageSetData_eq env response.2 hdata
  · exact hset
  · rw [hok.realloc] at hrealloc
    exact absurd hrealloc (by simp)

/-- An answer with a record, in a journal with room for it: the record is appended.
Source: `server.c`, `worker_on_message`
Kind: P -/
theorem workerOnMessage_of_fits (hcalls : env.journalCalls = .allOk) {a : Answer}
    {record : BufferText} {m' : Message} (hanswer : workerAnswer env m = some a)
    (hrecord : a.record = some record) (hreply : a.reply env = some m') {j : Journal}
    {content : List UInt8} (hholds : Holds j.region content)
    (hfits : sizeofSizeT + content.length + record.1.stored.length ≤ j.maxSize) :
    ∃ r, workerOnMessage env j m = some (m', { j with region := r }) ∧
      Holds r (content ++ record.1.stored) := by
  obtain ⟨r, hwrite, hr⟩ := journalWrite_of_room hholds hfits
  refine ⟨r, ?_, hr⟩
  simp [workerOnMessage, hanswer, Answer.log, hrecord, hreply, hcalls, hwrite]

/-- An answer with a record and a response, in a journal with room for any record: the one is
appended and the other set.
Source: `server.c`, `worker_on_message`
Kind: P -/
theorem workerOnMessage_of_answer (hok : env.AllOk) (hcalls : env.journalCalls = .allOk)
    {m₁ : Message} {record response : BufferText}
    (hanswer : workerAnswer env m = some ⟨m₁, some record, some response⟩)
    (hdata : textBufferSize ≤ m₁.data.length) {j : Journal} {content : List UInt8}
    (hholds : Holds j.region content)
    (hroom : sizeofSizeT + content.length + textBufferSize ≤ j.maxSize) :
    ∃ r, workerOnMessage env j m = some (withText m₁ response.1, { j with region := r }) ∧
      Holds r (content ++ record.1.stored) := by
  have hrecord := record.2
  refine workerOnMessage_of_fits hcalls hanswer rfl (Answer.reply_of_response hok hdata) hholds ?_
  rw [CString.length_stored]
  omega

end answers

/-! ## The handler in general -/

/-- The reply of an answer: the message with the text, or the message as it is.
Source: `server.c`, `message_set_data`
Kind: L -/
theorem Answer.reply_eq (env : HandlerEnv) {a : Answer}
    (hdata : textBufferSize ≤ a.message.data.length) :
    ∃ m', a.reply env = some m' ∧
      (m' = a.message ∨ ∃ response ∈ a.response, m' = withText a.message response.1) := by
  unfold Answer.reply
  cases hresponse : a.response with
  | none => exact ⟨a.message, rfl, .inl rfl⟩
  | some response =>
      obtain ⟨m', hset, hm' | ⟨-, hm'⟩⟩ := messageSetData_eq env response.2 hdata
      · exact ⟨m', hset, .inr ⟨response, rfl, hm'⟩⟩
      · exact ⟨m', hset, .inl hm'⟩

/-- The record of an answer is written, or refused, and the journal stays well formed.
Source: `journal.c`, `journal_write`
Kind: L -/
theorem Answer.log_eq (env : HandlerEnv) (a : Answer) {j : Journal} (hj : j.WellFormed) :
    ∃ j', a.log env j = some j' ∧ j'.WellFormed := by
  unfold Answer.log
  cases a.record with
  | none => exact ⟨j, rfl, hj⟩
  | some record =>
      have hlen : record.1.stored.length < 2 ^ 63 := by
        rw [CString.length_stored]
        exact lt_of_le_of_lt record.2 (by decide)
      obtain ⟨status, j', hwrite, hj'⟩ := hj.write env.journalCalls hlen
      exact ⟨j', by simp [hwrite], hj'⟩

/-- A handler call from its answer and its reply: the journal only takes the record.
Source: `server.c`, `worker_on_message`
Kind: L -/
theorem workerOnMessage_of_reply {env : HandlerEnv} {m m' : Message} {a : Answer}
    (hanswer : workerAnswer env m = some a) (hreply : a.reply env = some m') {j : Journal}
    (hj : j.WellFormed) : ∃ j', workerOnMessage env j m = some (m', j') ∧ j'.WellFormed := by
  obtain ⟨j', hlog, hj'⟩ := a.log_eq env hj
  exact ⟨j', by simp [workerOnMessage, hanswer, hlog, hreply], hj'⟩

/-- **The handler** on a message with a whole receive buffer: it returns, and leaves a message with
the same owner that the send path can read, and a well-formed journal. What it leaves of the
message does not depend on the journal.
Source: `server.c`, `worker_on_message`
Kind: P -/
theorem workerOnMessage_eq (env : HandlerEnv) {m : Message} (hdata : maxPayload ≤ m.data.length) :
    ∃ m', Sendable m' ∧ ∀ j : Journal, j.WellFormed →
      ∃ j', workerOnMessage env j m = some (m', j') ∧ j'.WellFormed := by
  have hsize := textBufferSize_le_maxPayload
  obtain ⟨a, hanswer, type, hmessage⟩ := workerAnswer_eq env (sizeofPid_le_maxPayload.trans hdata)
  have ha : a.message.data = m.data := by rw [hmessage]
  obtain ⟨m', hreply, hcases⟩ := a.reply_eq env (by rw [ha]; omega)
  refine ⟨m', ?_, fun j hj => workerOnMessage_of_reply hanswer hreply hj⟩
  rcases hcases with rfl | ⟨response, -, rfl⟩
  · exact fun hlen => le_trans hlen (by rwa [ha])
  · exact fun _ => length_le_data_withText response.2

/-- **The answer and the reply when every call succeeds**: a message of a type the handler does
not know stays as it is, every other message gets a text. Every access stays in the buffer.
Source: `server.c`, `worker_on_message`
Kind: P -/
theorem reply_of_allOk {env : HandlerEnv} (hok : env.AllOk) {m : Message}
    (hdata : maxPayload ≤ m.data.length) :
    ∃ a m', workerAnswer env m = some a ∧ a.reply env = some m' ∧
      (m.header.type ≠ MessageType.none.code ∧ m.header.type ≠ MessageType.pid.code ∧ m' = m ∨
        ∃ (type : UInt32) (response : BufferText),
          m' = withText { m with header := { m.header with type := type } } response.1) := by
  have hbuf : textBufferSize ≤ m.data.length := textBufferSize_le_maxPayload.trans hdata
  by_cases hnone : m.header.type = MessageType.none.code
  · exact ⟨_, _, workerAnswer_of_none hok hnone, Answer.reply_of_response hok hbuf,
      .inr ⟨_, _, rfl⟩⟩
  by_cases htype : m.header.type = MessageType.pid.code
  · have hpid := messagePid_eq (sizeofPid_le_maxPayload.trans hdata)
    exact ⟨_, _, workerAnswer_of_pid hok htype hpid, Answer.reply_of_response hok hbuf,
      .inr ⟨m.header.type, _, rfl⟩⟩
  · exact ⟨_, m, workerAnswer_of_other hnone htype, rfl, .inl ⟨hnone, htype, rfl⟩⟩

/-- **The handler when every call succeeds.**
Source: `server.c`, `worker_on_message`
Kind: P -/
theorem workerOnMessage_of_allOk {env : HandlerEnv} (hok : env.AllOk) {m : Message}
    (hdata : maxPayload ≤ m.data.length) :
    ∃ m', (m.header.type ≠ MessageType.none.code ∧ m.header.type ≠ MessageType.pid.code ∧ m' = m ∨
        ∃ (type : UInt32) (response : BufferText),
          m' = withText { m with header := { m.header with type := type } } response.1) ∧
      ∀ j : Journal, j.WellFormed →
        ∃ j', workerOnMessage env j m = some (m', j') ∧ j'.WellFormed := by
  obtain ⟨a, m', hanswer, hreply, hcases⟩ := reply_of_allOk hok hdata
  exact ⟨m', hcases, fun j hj => workerOnMessage_of_reply hanswer hreply hj⟩

/-! ## What a call can do to a message -/

section inversion

variable {env : HandlerEnv} {m m' : Message}

/-- What `message_set_data` can do: nothing, a write within the capacity and the buffer, or a new
buffer of exactly the size of the string.
Source: `server.c`, `message_set_data`
Kind: L -/
theorem messageSetData_cases {text : CString} (h : messageSetData env m text = some m') :
    m' = m ∨
    (text.strlen + 1 ≤ m.header.capacity.toNat ∧
      m'.header = { m.header with length := UInt32.ofNat (text.strlen + 1) } ∧
      m'.data.length = m.data.length) ∨
    (m'.header = { m.header with
        capacity := UInt32.ofNat (text.strlen + 1), length := UInt32.ofNat (text.strlen + 1) } ∧
      m'.data.length = text.strlen + 1) := by
  unfold messageSetData at h
  split_ifs at h with hcap
  · obtain ⟨⟨status, m₁⟩, hwrite, h⟩ := Option.bind_eq_some_iff.mp h
    cases h
    rcases messageWrite_cases hwrite with rfl | ⟨-, -, hheader, hdata⟩
    · exact .inl rfl
    · exact .inr (.inl ⟨hcap, hheader, hdata⟩)
  · cases h
    exact .inl rfl
  · obtain ⟨block, hstore, h⟩ := Option.bind_eq_some_iff.mp h
    cases h
    refine .inr (.inr ⟨rfl, (length_of_store hstore).2.trans ?_⟩)
    simp only [reallocBlock, List.length_append, List.length_take, List.length_map,
      List.length_range]
    omega

/-- The answer to a message changes its type at most.
Source: `server.c`, `worker_on_message`
Kind: L -/
theorem message_of_workerAnswer {a : Answer} (h : workerAnswer env m = some a) :
    ∃ type, a.message = { m with header := { m.header with type := type } } := by
  unfold workerAnswer at h
  by_cases hnone : m.header.type = MessageType.none.code
  · rw [if_pos hnone] at h
    split_ifs at h <;> cases h <;> exact ⟨_, rfl⟩
  rw [if_neg hnone] at h
  by_cases hpid : m.header.type = MessageType.pid.code
  · rw [if_pos hpid] at h
    obtain ⟨pid, -, h⟩ := Option.bind_eq_some_iff.mp h
    split_ifs at h <;> cases h <;> exact ⟨_, rfl⟩
  · rw [if_neg hpid] at h
    cases h
    exact ⟨_, rfl⟩

/-- The message a handler call leaves is the reply of its answer.
Source: `server.c`, `worker_on_message`
Kind: L -/
theorem answer_of_workerOnMessage {j j' : Journal}
    (h : workerOnMessage env j m = some (m', j')) :
    ∃ a, workerAnswer env m = some a ∧ a.reply env = some m' := by
  unfold workerOnMessage at h
  obtain ⟨a, hanswer, h⟩ := Option.bind_eq_some_iff.mp h
  obtain ⟨j₁, -, h⟩ := Option.bind_eq_some_iff.mp h
  obtain ⟨m₁, hreply, h⟩ := Option.bind_eq_some_iff.mp h
  cases h
  exact ⟨a, hanswer, hreply⟩

/-- The reply of an answer is its message, or what `message_set_data` makes of it.
Source: `server.c`, `message_set_data`
Kind: L -/
theorem Answer.reply_cases {a : Answer} (h : a.reply env = some m') :
    m' = a.message ∨
      ∃ response ∈ a.response, messageSetData env a.message response.1 = some m' := by
  unfold Answer.reply at h
  split at h
  · cases h
    exact .inl rfl
  · rename_i response hresponse
    exact .inr ⟨response, hresponse, h⟩

/-- **The worker function keeps the address** of the message, whatever the system answers.
Source: `server.c`, `worker_on_message`
Kind: P -/
theorem ownerAddr_of_workerOnMessage {j j' : Journal}
    (h : workerOnMessage env j m = some (m', j')) :
    m'.header.ownerAddr = m.header.ownerAddr := by
  obtain ⟨a, hanswer, hreply⟩ := answer_of_workerOnMessage h
  obtain ⟨type, ha⟩ := message_of_workerAnswer hanswer
  have howner : a.message.header.ownerAddr = m.header.ownerAddr := by rw [ha]
  rw [← howner]
  rcases Answer.reply_cases hreply with rfl | ⟨response, -, hset⟩
  · rfl
  · rcases messageSetData_cases hset with rfl | ⟨-, hheader, -⟩ | ⟨hheader, -⟩
    · rfl
    · rw [hheader]
    · rw [hheader]

end inversion

end CpuMonitor.Server
