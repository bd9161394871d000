import CpuMonitor.Server.Representation

/-!
# A message reads back its last write

`network/message.c` and `server/server.c`: a message has two writers, `message_write`, which is
bounded by the capacity, and `message_set_data`, which grows the buffer, and one reader,
`message_read`.

* **The system** `Written`: a message and the payload that was last written to it, under any calls
  of the two writers (`WriteCall`), successful or not.
* **The invariant** `Written.Valid`: the header describes the buffer (`Consistent`), and the first
  `length` bytes of the buffer are the payload. One lemma per writer (`Valid.write`,
  `Valid.setData`), then every sequence of calls (`Valid.run`).
* `message_reads_back` — what `message_read` delivers after any such sequence.
-/

namespace CpuMonitor.Server

open CpuMonitor.Lib CpuMonitor.Network

/-! ## The writers -/

/-- A call that writes to a message.
Source: `message.c`, `message_write`; `server.c`, `message_set_data`
Kind: D -/
inductive WriteCall
  | write (data : List UInt8) (length : UInt32)
  | setData (env : HandlerEnv) (text : CString)

/-- What the caller has to see to: the data has the announced length, and the string and its
terminator fit in a message.
Source: `message.c`, `message_write`; `server.c`, `message_set_data`
Kind: D -/
def WriteCall.Allowed : WriteCall → Prop
  | .write data length => length.toNat ≤ data.length
  | .setData _ text => text.strlen < 2 ^ 32 - 29

/-- A message and the last payload that was successfully written to it.
Source: `message.c`, `message_write`; `server.c`, `message_set_data`
Kind: D -/
structure Written where
  message : Message
  payload : List UInt8

/-- Whether `message_set_data` sets its string.
Source: `message.c`, `message_write`; `server.c`, `message_set_data`
Kind: D -/
def setDataSucceeds (env : HandlerEnv) (m : Message) (text : CString) : Prop :=
  text.strlen + 1 ≤ m.header.capacity.toNat ∨ env.realloc = true

/-- Whether the text fits can be computed.
Source: none: infrastructure
Kind: D -/
instance (env : HandlerEnv) (m : Message) (text : CString) :
    Decidable (setDataSucceeds env m text) :=
  inferInstanceAs (Decidable (_ ∨ _))

/-- One call.
Source: `message.c`, `message_write`; `server.c`, `message_set_data`
Kind: D -/
def Written.step (s : Written) : WriteCall → Option Written
  | .write data length => do
      let (status, m) ← messageWrite s.message data length
      some ⟨m, if status = .success then data.take length.toNat else s.payload⟩
  | .setData env text => do
      let m ← messageSetData env s.message text
      some ⟨m, if setDataSucceeds env s.message text then text.stored else s.payload⟩

/-! ## The invariant -/

/-- The header describes the buffer, the buffer begins with the payload, and the fields that are
not about data are those of `m₀`.
Source: `message.c`, `message_write`; `server.c`, `message_set_data`
Kind: D -/
structure Written.Valid (m₀ : Message) (s : Written) : Prop where
  consistent : Consistent s.message
  length_eq : s.message.header.length.toNat = s.payload.length
  payload_eq : slice s.message.data 0 s.payload.length = s.payload
  type_eq : s.message.header.type = m₀.header.type
  owner_eq : s.message.header.ownerAddr = m₀.header.ownerAddr

namespace Written.Valid

variable {m₀ : Message} {s : Written}

/-- A new message holds the empty payload.
Source: `message.c`, `message_create`
Kind: L -/
theorem create {calls : MessageCreateCalls} {fresh : FreshMemory} {type : MessageType}
    {dataCapacity : UInt32} (h : messageCreate calls fresh type dataCapacity = some m₀) :
    Valid m₀ ⟨m₀, []⟩ := by
  have hconsistent := consistent_of_messageCreate h
  obtain ⟨-, rfl⟩ := messageCreate_eq_some h
  exact ⟨hconsistent, rfl, rfl, rfl, rfl⟩

/-- **`message_write`** fails exactly above the capacity, and then changes nothing.
Source: `message.c`, `message_write`
Kind: P -/
theorem messageWrite_iff (h : Valid m₀ s) {data : List UInt8} {length : UInt32}
    (hdata : length.toNat ≤ data.length) :
    ∃ status m', messageWrite s.message data length = some (status, m') ∧
      (status ≠ .success ↔ s.message.header.capacity < length) ∧
      (status ≠ .success → m' = s.message) ∧
      (status = .success → m' = ⟨{ s.message.header with length := length },
        data.take length.toNat ++ s.message.data.drop length.toNat⟩) := by
  by_cases hcap : s.message.header.capacity < length
  · refine ⟨.errorWrite, s.message, if_pos hcap, ?_, fun _ => rfl, fun hno => nomatch hno⟩
    exact ⟨fun _ => hcap, fun _ => MessageStatus.noConfusion⟩
  · have hle := UInt32.not_lt.mp hcap
    have hbuf : length.toNat ≤ s.message.data.length :=
      (UInt32.le_iff_toNat_le.mp hle).trans h.consistent.capacity_le
    refine ⟨.success, _, messageWrite_of_fits hdata hle hbuf, ?_, fun hno => absurd rfl hno,
      fun _ => rfl⟩
    exact ⟨fun hno => absurd rfl hno, fun hno => absurd hno hcap⟩

/-- A write keeps the message and what it holds in line.
Source: none: infrastructure
Kind: L -/
theorem write (h : Valid m₀ s) {data : List UInt8} {length : UInt32}
    (hdata : length.toNat ≤ data.length) :
    ∃ s', s.step (.write data length) = some s' ∧ Valid m₀ s' := by
  obtain ⟨status, m', hwrite, -, hsame, hset⟩ := h.messageWrite_iff hdata
  have hconsistent := h.consistent.messageWrite hwrite
  refine ⟨_, by simp [Written.step, hwrite]; rfl, ?_⟩
  by_cases hstatus : status = .success
  · have htake : (data.take length.toNat).length = length.toNat := by
      rw [List.length_take, Nat.min_eq_left hdata]
    rw [if_pos hstatus]
    have hm' := hset hstatus
    subst hm'
    refine ⟨hconsistent, htake.symm, ?_, h.type_eq, h.owner_eq⟩
    exact slice_append_self rfl
  · rw [if_neg hstatus]
    have hm' := hsame hstatus
    subst hm'
    exact ⟨h.consistent, h.length_eq, h.payload_eq, h.type_eq, h.owner_eq⟩

/-- **`message_set_data`** sets its string, or leaves the message as it is.
Source: `server.c`, `message_set_data`
Kind: P -/
theorem messageSetData_eq (h : Valid m₀ s) (env : HandlerEnv) {text : CString}
    (htext : text.strlen < 2 ^ 32 - 29) :
    messageSetData env s.message text =
      some (if setDataSucceeds env s.message text then withText s.message text else s.message) := by
  refine messageSetData_of_lt env (by omega) ?_
  intro hcap
  exact hcap.trans h.consistent.capacity_le

/-- So does a text.
Source: none: infrastructure
Kind: L -/
theorem setData (h : Valid m₀ s) (env : HandlerEnv) {text : CString}
    (htext : text.strlen < 2 ^ 32 - 29) :
    ∃ s', s.step (.setData env text) = some s' ∧ Valid m₀ s' := by
  have hset := h.messageSetData_eq env htext
  have hconsistent := h.consistent.messageSetData
    (show text.strlen + 1 ≤ uint32Max - sizeofMessageHeader by
      norm_num [uint32Max, sizeofMessageHeader] at htext ⊢
      omega) hset
  refine ⟨_, by simp [Written.step, hset]; rfl, ?_⟩
  by_cases hsucceeds : setDataSucceeds env s.message text
  · rw [if_pos hsucceeds] at hconsistent
    rw [if_pos hsucceeds, if_pos hsucceeds]
    refine ⟨hconsistent, ?_, ?_, ?_, ?_⟩
    · rw [CString.length_stored]
      exact toNat_length_of_lt (by omega)
    · rw [CString.length_stored]
      exact slice_withText
    · rw [type_withText]
      exact h.type_eq
    · rw [ownerAddr_withText]
      exact h.owner_eq
  · rw [if_neg hsucceeds, if_neg hsucceeds]
    exact h

/-- **Every sequence of calls** has a defined outcome and keeps the invariant.
Source: none: infrastructure
Kind: P -/
theorem run (h : Valid m₀ s) {writes : List WriteCall} (hallowed : ∀ w ∈ writes, w.Allowed) :
    ∃ s', writes.foldlM Written.step s = some s' ∧ Valid m₀ s' := by
  induction writes generalizing s with
  | nil => exact ⟨s, rfl, h⟩
  | cons w writes ih =>
      have hw := hallowed w List.mem_cons_self
      have hstep : ∃ s₁, s.step w = some s₁ ∧ Valid m₀ s₁ := by
        cases w with
        | write data length => exact h.write hw
        | setData env text => exact h.setData env hw
      obtain ⟨s₁, hs₁, hvalid⟩ := hstep
      obtain ⟨s', hrun, hs'⟩ := ih hvalid fun w' hw' => hallowed w' (List.mem_cons_of_mem _ hw')
      exact ⟨s', by simp [List.foldlM_cons, hs₁, hrun], hs'⟩

/-- **`message_read`** delivers the payload as far as it is asked for.
Source: `message.c`, `message_read`
Kind: P -/
theorem messageRead_eq (h : Valid m₀ s) {buffer : List UInt8} {length : UInt32}
    (hbuffer : length.toNat ≤ buffer.length) :
    ∃ readLength : UInt32, readLength.toNat = min length.toNat s.payload.length ∧
      messageRead s.message buffer length = some
        (if readLength.toNat = 0 then .errorRead else .success,
          s.payload.take readLength.toNat ++ buffer.drop readLength.toNat, readLength) := by
  obtain ⟨readLength, hmin, hread⟩ := Network.messageRead_eq
    (h.consistent.length_le.trans h.consistent.capacity_le) hbuffer
  rw [h.length_eq] at hmin
  have htake : slice s.message.data 0 readLength.toNat = s.payload.take readLength.toNat := by
    conv_rhs => rw [← h.payload_eq]
    rw [slice, slice, List.drop_zero, List.take_take, Nat.min_eq_left (by omega)]
  rw [htake] at hread
  exact ⟨readLength, hmin, hread⟩

end Written.Valid

/-- **A message reads back its last successful write.** After `message_create` and any sequence of
`message_write` and `message_set_data` calls: the length is within the capacity and the capacity
within the buffer; a write fails exactly above the capacity, and a failed write or a failed
`realloc` changes nothing; a read delivers the first bytes of the last payload, as many as were
asked for, and is an error exactly if there are none; and the type and the owner are those of the
new message.
Source: `message.c`, `message_write`, `message_read`; `server.c`, `message_set_data`
Kind: P
Hyps: strings below `2 ^ 32 - 29` bytes; buffers of the size that is passed -/
theorem message_reads_back {calls : MessageCreateCalls} {fresh : FreshMemory} {type : MessageType}
    {dataCapacity : UInt32} {m₀ : Message}
    (hcreate : messageCreate calls fresh type dataCapacity = some m₀) {writes : List WriteCall}
    (hallowed : ∀ w ∈ writes, w.Allowed) :
    ∃ s, writes.foldlM Written.step ⟨m₀, []⟩ = some s ∧
      s.message.header.length.toNat ≤ s.message.header.capacity.toNat ∧
      s.message.header.capacity.toNat ≤ s.message.data.length ∧
      (∀ (data : List UInt8) (length : UInt32), length.toNat ≤ data.length →
        ∃ status m', messageWrite s.message data length = some (status, m') ∧
          (status ≠ .success ↔ s.message.header.capacity < length) ∧
          (status ≠ .success → m' = s.message)) ∧
      (∀ (env : HandlerEnv) (text : CString), text.strlen < 2 ^ 32 - 29 →
        ¬setDataSucceeds env s.message text →
        messageSetData env s.message text = some s.message) ∧
      (∀ (buffer : List UInt8) (length : UInt32), length.toNat ≤ buffer.length →
        ∃ readLength : UInt32, readLength.toNat = min length.toNat s.payload.length ∧
          messageRead s.message buffer length = some
            (if readLength.toNat = 0 then .errorRead else .success,
              s.payload.take readLength.toNat ++ buffer.drop readLength.toNat, readLength)) ∧
      s.message.header.type = type.code ∧
      s.message.header.ownerAddr = m₀.header.ownerAddr := by
  obtain ⟨s, hrun, hs⟩ := (Written.Valid.create hcreate).run hallowed
  refine ⟨s, hrun, hs.consistent.length_le, hs.consistent.capacity_le, ?_, ?_, ?_, ?_,
    hs.owner_eq⟩
  · intro data length hdata
    obtain ⟨status, m', hwrite, hiff, hsame, -⟩ := hs.messageWrite_iff hdata
    exact ⟨status, m', hwrite, hiff, hsame⟩
  · intro env text htext hfails
    rw [hs.messageSetData_eq env htext, if_neg hfails]
  · intro buffer length hbuffer
    exact hs.messageRead_eq hbuffer
  · obtain ⟨-, rfl⟩ := messageCreate_eq_some hcreate
    exact hs.type_eq

/-- A short text, then a longer one that the buffer has to grow for, then a write that does not fit.
Source: none: infrastructure
Kind: D -/
def threeWrites : List WriteCall :=
  [.write [1, 2, 3] 2, .setData quietEnv responseNotFound.1, .write (List.replicate 11 7) 11]

/-- All three are allowed.
Source: none: infrastructure
Kind: L -/
theorem threeWrites_allowed : ∀ w ∈ threeWrites, w.Allowed := by
  intro w hw
  simp only [threeWrites, List.mem_cons, List.not_mem_nil, or_false] at hw
  rcases hw with rfl | rfl | rfl
  · exact (show (2 : UInt32).toNat ≤ [(1 : UInt8), 2, 3].length by decide)
  · exact lt_of_lt_of_le responseNotFound.2 (by decide)
  · exact (show (11 : UInt32).toNat ≤ (List.replicate 11 (7 : UInt8)).length by decide)

/-- They are read back.
Source: `message.c`, `message_create`
Kind: C -/
theorem message_reads_back_three :
    ∃ m₀ s, messageCreate .allOk zeroMemory .pid 4 = some m₀ ∧
      threeWrites.foldlM Written.step ⟨m₀, []⟩ = some s ∧
      s.message.header.capacity.toNat ≤ s.message.data.length ∧
      s.message.header.type = MessageType.pid.code := by
  have hcreate : messageCreate .allOk zeroMemory .pid 4 = some _ := rfl
  obtain ⟨s, hrun, -, hcap, -, -, -, htype, -⟩ := message_reads_back hcreate threeWrites_allowed
  exact ⟨_, s, hcreate, hrun, hcap, htype⟩

end CpuMonitor.Server
