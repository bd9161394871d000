import CpuMonitor.Server.Journal

/-!
# The export of the journal over a stream socket

`server/journal_transfer.c`: the server reads the journal and passes it to one call of `send`
(`journal_transfer_run_receiver`); the client writes what `recv` returns to a file, until `recv`
returns zero or fails (`journal_transfer_rcv_and_write_file`).

* **The two programs** `journalTransferRunReceiver`, `journalTransferRcvAndWriteFile`, as functions
  of what the system answers to their calls.
* **The kernel between them** `Delivery`: the bytes that `send` accepted come out of `recv` in
  order, cut anyhow; zero means that all have come, an error can come at any point.
* `journal_transfer_complete_iff` — when both return zero, the file is the journal exactly if `send`
  took all of it and what `recv` delivered is all that `send` took; neither program checks the one
  or the other.
-/

namespace CpuMonitor.Server

open CpuMonitor.Lib

/-! ## The server's side -/

/-- `SERVER_MAX_JOURNAL_SIZE`.
Source: `config.h`, `SERVER_MAX_JOURNAL_SIZE`
Kind: D -/
def serverMaxJournalSize : ℕ := 5 * 1024 * 1024

/-- What the system answers to one call of `journal_transfer_run_receiver`.
Source: `journal_transfer.c`, `journal_transfer_run_receiver`
Kind: D -/
structure TransferServerCalls where
  socket : Bool
  bind : Bool
  listen : Bool
  accept : Bool
  /-- The block for the content, with what `malloc` left in it; `none` is `NULL`. -/
  malloc : Option (List.Vector UInt8 serverMaxJournalSize)
  /-- The `pthread_*` calls of `journal_read`. -/
  journalRead : JournalCalls
  /-- The number of bytes `send` accepts; `none` is `-1`. -/
  send : Option ℕ

/-- The value returned, and the bytes the kernel has accepted for the client. A short count of
`send` is only logged.
Source: `journal_transfer.c`, `journal_transfer_run_receiver`
Kind: D
Fidelity: exact (one connection; the socket's path and the messages to `stdout` are left out) -/
def journalTransferRunReceiver (calls : TransferServerCalls) (journal : Journal) :
    Option (ℤ × List UInt8) :=
  if !calls.socket then some (-1, [])
  else if !calls.bind then some (-1, [])
  else if !calls.listen then some (-1, [])
  else if !calls.accept then some (-1, [])
  else
    match calls.malloc with
    | none => some (-1, [])
    | some block => do
        let (status, content, length) ←
          journalRead calls.journalRead journal block.toList serverMaxJournalSize
        if status ≠ .success then some (-1, [])
        else
          let bytes ← load content 0 length
          match calls.send with
          | none => some (-1, [])
          | some sent => some (0, bytes.take sent)

/-! ## The client's side -/

/-- `JOURNAL_MAX_SIZE`, the size of the client's buffer.
Source: none: infrastructure
Kind: D -/
def journalMaxSize : ℕ := 5 * 1024 * 1024

/-- One call of `recv` and, if it returned bytes, of `fwrite`.
Source: `journal_transfer.c`, `journal_transfer_rcv_and_write_file`
Kind: D -/
structure RecvCall where
  /-- The bytes received, none of them at the end of the stream; `none` is `-1`. -/
  recv : Option (List UInt8)
  /-- The number of bytes `fwrite` writes. -/
  fwrite : ℕ

/-- The call of `fwrite` writes all that `recv` returned.
Source: `journal_transfer.c`, `journal_transfer_rcv_and_write_file`
Kind: D -/
def RecvCall.Full (r : RecvCall) : Prop := ∀ bytes, r.recv = some bytes → r.fwrite = bytes.length

/-- What the system answers to one call of `journal_transfer_rcv_and_write_file`.
Source: `journal_transfer.c`, `journal_transfer_rcv_and_write_file`
Kind: D -/
structure TransferClientCalls where
  socket : Bool
  connect : Bool
  /-- The `send` of the trigger message. -/
  send : Bool
  fopen : Bool
  recvs : List RecvCall

/-- The loop and the return after it, from the file and the total so far; `none` if the calls of
`recv` run out before the loop ends.
Source: `journal_transfer.c`, `journal_transfer_rcv_and_write_file`
Kind: D -/
def receiveLoop (file : List UInt8) (total : ℕ) : List RecvCall → Option (ℤ × List UInt8)
  | [] => none
  | ⟨some (b :: bs), written⟩ :: rest =>
      if written ≠ (b :: bs).length then some (-1, file ++ (b :: bs).take written)
      else receiveLoop (file ++ (b :: bs)) (addSizeT total (b :: bs).length) rest
  -- `recv` has returned zero or `-1`: the loop does not tell the one from the other
  | _ :: _ => if total = 0 then some (-1, file) else some (0, file)

/-- The value returned, and the file after the call.
Source: `journal_transfer.c`, `journal_transfer_rcv_and_write_file`
Kind: D
Fidelity: exact (the paths and the message to `stdout` are left out; `fopen` truncates the file) -/
def journalTransferRcvAndWriteFile (calls : TransferClientCalls) (file : Option (List UInt8)) :
    Option (ℤ × Option (List UInt8)) :=
  if !calls.socket then some (-1, file)
  else if !calls.connect then some (-1, file)
  else if !calls.send then some (-1, file)
  else if !calls.fopen then some (-1, file)
  else (receiveLoop [] 0 calls.recvs).map fun r => (r.1, some r.2)

/-! ## The kernel -/

/-- What `recv` can return when `bytes` are still to be delivered.
Source: `journal_transfer.c`, `journal_transfer_rcv_and_write_file`
Kind: D -/
inductive Delivery : List UInt8 → List (Option (List UInt8)) → Prop
  /-- All bytes have been delivered, and the other side has closed the connection. -/
  | eof : Delivery [] [some []]
  /-- `recv` fails. -/
  | error {bytes : List UInt8} : Delivery bytes [none]
  /-- Some of the bytes are delivered, at least one and as many as the buffer takes. -/
  | data (bytes : List UInt8) {rest : List UInt8} {results : List (Option (List UInt8))}
      (pos : bytes ≠ []) (fits : bytes.length ≤ journalMaxSize) :
      Delivery rest results → Delivery (bytes ++ rest) (some bytes :: results)

/-- The bytes that the calls of `recv` return.
Source: `journal_transfer.c`, `journal_transfer_rcv_and_write_file`
Kind: D -/
def delivered (results : List (Option (List UInt8))) : List UInt8 :=
  results.flatMap fun r => r.getD []

section delivery

variable {bytes : List UInt8} {results : List (Option (List UInt8))}

/-- What is delivered is the first part of what was accepted.
Source: `journal_transfer.c`, `journal_transfer_rcv_and_write_file`
Kind: L -/
theorem Delivery.isPrefix (h : Delivery bytes results) : delivered results <+: bytes := by
  induction h with
  | eof => exact List.prefix_rfl
  | error => exact List.nil_prefix
  | data bytes pos fits _ ih => exact (List.prefix_append_right_inj _).mpr ih

/-- When the last call returns zero, all of it is.
Source: `journal_transfer.c`, `journal_transfer_rcv_and_write_file`
Kind: L -/
theorem Delivery.eq_of_eof (h : Delivery bytes results)
    (hlast : results.getLast? = some (some [])) :
    delivered results = bytes := by
  induction h with
  | eof => rfl
  | error => exact absurd hlast (by simp)
  | data bytes pos fits hrest ih =>
      rename_i results
      have hne : results ≠ [] := by
        cases hrest <;> exact List.cons_ne_nil _ _
      rw [List.getLast?_cons, List.getLast?_eq_some_getLast hne] at hlast
      have hlast' : results.getLast? = some (some []) := by
        rw [List.getLast?_eq_some_getLast hne]
        exact hlast
      exact congrArg (bytes ++ ·) (ih hlast')

/-- **The client's loop writes what is delivered**, if `fwrite` writes what it is given; the value
tells whether that was anything.
Source: `journal_transfer.c`, `journal_transfer_rcv_and_write_file`
Kind: P -/
theorem receiveLoop_eq (h : Delivery bytes results) {recvs : List RecvCall}
    (hrecvs : recvs.map RecvCall.recv = results) (hfull : ∀ r ∈ recvs, r.Full)
    (file : List UInt8) {total : ℕ} (hsize : total + bytes.length < 2 ^ 64) :
    receiveLoop file total recvs =
      some (if total + (delivered results).length = 0 then -1 else 0,
        file ++ delivered results) := by
  induction h generalizing recvs file total with
  | eof =>
      obtain ⟨⟨recv, written⟩, rest, rfl, rfl, -⟩ := List.map_eq_cons_iff.mp hrecvs
      simp only [receiveLoop, delivered, List.flatMap_singleton, Option.getD_some, List.length_nil,
        Nat.add_zero, List.append_nil]
      split_ifs <;> rfl
  | error =>
      obtain ⟨⟨recv, written⟩, rest, rfl, hrecv, -⟩ := List.map_eq_cons_iff.mp hrecvs
      obtain rfl : recv = none := hrecv
      simp only [receiveLoop, delivered, List.flatMap_singleton, Option.getD_none, List.length_nil,
        Nat.add_zero, List.append_nil]
      split_ifs <;> rfl
  | data got pos fits hrest ih =>
      rename_i results
      obtain ⟨⟨recv, written⟩, rest, rfl, hrecv, hmap⟩ := List.map_eq_cons_iff.mp hrecvs
      obtain rfl : recv = some got := hrecv
      have hwritten : written = got.length := hfull _ List.mem_cons_self got rfl
      rw [List.length_append] at hsize
      have hadd : addSizeT total got.length = total + got.length := addSizeT_of_lt (by omega)
      have hloop : receiveLoop file total (⟨some got, written⟩ :: rest) =
          receiveLoop (file ++ got) (total + got.length) rest := by
        obtain ⟨b, bs, rfl⟩ := List.exists_cons_of_ne_nil pos
        rw [receiveLoop, if_neg (not_not.mpr hwritten), hadd]
      have htail : ∀ r ∈ rest, r.Full := fun r hr => hfull r (List.mem_cons_of_mem _ hr)
      have hall : delivered (some got :: results) = got ++ delivered results := rfl
      rw [hloop, ih hmap htail (file ++ got) (by omega), hall, List.length_append, Nat.add_assoc,
        List.append_assoc]

end delivery

/-! ## The whole transfer -/

section transfer

variable {j : Journal} {content : List UInt8} {calls : TransferServerCalls}
  {client : TransferClientCalls}

/-- A read that succeeds has had both its mutex calls succeed.
Source: `journal.c`, `journal_read`
Kind: L -/
theorem calls_of_journalRead_success {calls : JournalCalls} {buffer buffer' : List UInt8}
    {bufferSize length : ℕ}
    (h : journalRead calls j buffer bufferSize = some (.success, buffer', length)) :
    calls = .allOk := by
  obtain ⟨lock, unlock⟩ := calls
  cases lock with
  | false => simp [journalRead] at h
  | true =>
      cases unlock with
      | true => rfl
      | false =>
          -- the copy may succeed, but no path leads to a success
          obtain ⟨size, -, h⟩ := Option.bind_eq_some_iff.mp h
          by_cases hsmall : bufferSize < size
          · simp [hsmall] at h
          · rw [if_neg hsmall] at h
            obtain ⟨bytes, -, h⟩ := Option.bind_eq_some_iff.mp h
            obtain ⟨buffer₁, -, h⟩ := Option.bind_eq_some_iff.mp h
            simp at h

/-- `send` is asked to send the whole content: the block is as large as the journal can become, so
`journal_read` does not refuse.
Source: `journal.c`, `journal_read`
Kind: L -/
theorem request_of_journalRead (h : Holds j.region content)
    (hmax : j.maxSize ≤ serverMaxJournalSize)
    (block : List.Vector UInt8 serverMaxJournalSize) :
    ∃ buffer, journalRead .allOk j block.toList serverMaxJournalSize =
        some (.success, buffer, content.length) ∧
      load buffer 0 content.length = some content := by
  have hroom := h.room
  refine ⟨_, journalRead_of_le h (by omega) (block.toList_length).ge, ?_⟩
  rw [load_of_le (by rw [List.length_append]; omega), slice_append_self rfl]

/-- **The server's side**: a return of zero says that `send` took a first part of the content.
Source: `journal_transfer.c`, `journal_transfer_run_receiver`
Kind: P -/
theorem accepted_of_zero (h : Holds j.region content) (hmax : j.maxSize ≤ serverMaxJournalSize)
    {accepted : List UInt8}
    (hserver : journalTransferRunReceiver calls j = some (0, accepted)) :
    ∃ sent, calls.send = some sent ∧ accepted = content.take sent := by
  unfold journalTransferRunReceiver at hserver
  split_ifs at hserver
  · simp at hserver
  · simp at hserver
  · simp at hserver
  · simp at hserver
  · split at hserver
    · simp at hserver
    · rename_i block hblock
      obtain ⟨⟨status, buffer, length⟩, hread, hrest⟩ := Option.bind_eq_some_iff.mp hserver
      dsimp only at hrest
      split_ifs at hrest with hstatus
      · simp at hrest
      · rw [not_not.mp hstatus] at hread
        obtain ⟨bytes, hload, hsent⟩ := Option.bind_eq_some_iff.mp hrest
        have hcalls := calls_of_journalRead_success hread
        obtain ⟨buffer', hread', hload'⟩ := request_of_journalRead h hmax block
        rw [hcalls, hread', Option.some.injEq, Prod.mk.injEq, Prod.mk.injEq] at hread
        rw [← hread.2.1, ← hread.2.2, hload', Option.some.injEq] at hload
        split at hsent
        · simp at hsent
        · rename_i sent hsend
          rw [Option.some.injEq, Prod.mk.injEq, ← hload] at hsent
          exact ⟨sent, hsend, hsent.2.symm⟩

/-- **The client's side**: a return of zero says that the file holds what was delivered.
Source: `journal_transfer.c`, `journal_transfer_rcv_and_write_file`
Kind: P -/
theorem file_of_zero {accepted : List UInt8}
    (hkernel : Delivery accepted (client.recvs.map RecvCall.recv))
    (hfull : ∀ r ∈ client.recvs, r.Full) (hsize : accepted.length < 2 ^ 64)
    {file file' : Option (List UInt8)}
    (hclient : journalTransferRcvAndWriteFile client file = some (0, file')) :
    file' = some (delivered (client.recvs.map RecvCall.recv)) := by
  unfold journalTransferRcvAndWriteFile at hclient
  split_ifs at hclient
  · simp at hclient
  · simp at hclient
  · simp at hclient
  · simp at hclient
  · have hloop := receiveLoop_eq hkernel rfl hfull [] (show 0 + accepted.length < 2 ^ 64 by omega)
    rw [hloop, Option.map_some, Option.some.injEq, Prod.mk.injEq] at hclient
    exact hclient.2.symm

/-- **When the exported file is the journal.** For every journal of at most
`SERVER_MAX_JOURNAL_SIZE` bytes, every count that `send` returns and every way in which the stream
is cut into the results of `recv`, the last of them zero or an error: if both programs return zero,
the file holds a first part of the content. It is all of it exactly if `send` took the whole content
and the results of `recv` are together all that `send` took, which they are if the last one is zero.
Source: `journal_transfer.c`, `journal_transfer_run_receiver`, `journal_transfer_rcv_and_write_file`
Kind: P
Hyps: every `fwrite` writes all that it is given -/
theorem journal_transfer_complete_iff (h : Holds j.region content)
    (hmax : j.maxSize ≤ serverMaxJournalSize) {accepted : List UInt8}
    (hserver : journalTransferRunReceiver calls j = some (0, accepted))
    (hkernel : Delivery accepted (client.recvs.map RecvCall.recv))
    (hfull : ∀ r ∈ client.recvs, r.Full) {file file' : Option (List UInt8)}
    (hclient : journalTransferRcvAndWriteFile client file = some (0, file')) :
    ∃ sent out, calls.send = some sent ∧ file' = some out ∧ out <+: content ∧
      (out = content ↔
        content.length ≤ sent ∧ delivered (client.recvs.map RecvCall.recv) = accepted) ∧
      ((client.recvs.map RecvCall.recv).getLast? = some (some []) →
        delivered (client.recvs.map RecvCall.recv) = accepted ∧ out = accepted) := by
  obtain ⟨sent, hsend, haccepted⟩ := accepted_of_zero h hmax hserver
  have hroom := h.room
  have hsizeT := h.size_t
  have hlength : accepted.length = min sent content.length := by
    rw [haccepted, List.length_take]
  have hfile := file_of_zero hkernel hfull (by omega) hclient
  have hprefix : delivered (client.recvs.map RecvCall.recv) <+: content :=
    hkernel.isPrefix.trans (haccepted ▸ List.take_prefix sent content)
  have hle := hkernel.isPrefix.length_le
  refine ⟨sent, _, hsend, hfile, hprefix, ⟨?_, ?_⟩, fun hlast => ?_⟩
  · intro hout
    have htook : content.length ≤ sent := by
      rw [hout] at hle
      omega
    refine ⟨htook, ?_⟩
    rw [hout, haccepted, List.take_of_length_le htook]
  · rintro ⟨htook, hall⟩
    rw [hall, haccepted, List.take_of_length_le htook]
  · exact ⟨hkernel.eq_of_eof hlast, hkernel.eq_of_eof hlast⟩

end transfer

/-! ## A journal of two bytes -/

/-- A journal of ten bytes that holds two.
Source: none: infrastructure
Kind: D -/
def twoByteJournal : Journal := ⟨10, ⟨[10, 0, 0, 0, 0, 0, 0, 0, 1, 2], rfl⟩⟩

/-- This journal holds two bytes.
Source: none: infrastructure
Kind: L -/
theorem holds_twoByteJournal : Holds twoByteJournal.region [1, 2] where
  size_t := by decide
  room := by decide
  word := by decide
  bytes := by decide

/-- Every call of the server succeeds, `send` with this count.
Source: none: infrastructure
Kind: D -/
def TransferServerCalls.taking (sent : ℕ) : TransferServerCalls :=
  ⟨true, true, true, true, some (List.Vector.replicate serverMaxJournalSize 0), .allOk, some sent⟩

/-- Every call of the client before its loop succeeds, and the loop gets these results.
Source: none: infrastructure
Kind: D -/
def TransferClientCalls.receiving (results : List (Option (List UInt8))) : TransferClientCalls :=
  ⟨true, true, true, true, results.map fun r => ⟨r, (r.getD []).length⟩⟩

/-- The receiver sends as much of them as the kernel takes.
Source: `journal_transfer.c`, `journal_transfer_run_receiver`
Kind: L -/
theorem runReceiver_twoByteJournal (sent : ℕ) :
    journalTransferRunReceiver (.taking sent) twoByteJournal = some (0, [1, 2].take sent) := by
  obtain ⟨buffer, hread, hload⟩ := request_of_journalRead holds_twoByteJournal (by decide)
    (List.Vector.replicate serverMaxJournalSize 0)
  unfold journalTransferRunReceiver TransferServerCalls.taking
  dsimp only
  rw [hread, Option.bind_eq_bind, Option.bind_some, hload]
  rfl

/-- Both bytes are taken, and delivered one by one.
Source: `journal_transfer.c`, `journal_transfer_run_receiver`, `journal_transfer_rcv_and_write_file`
Kind: C -/
theorem journal_transfer_complete_twoBytes :
    journalTransferRunReceiver (.taking 2) twoByteJournal = some (0, [1, 2]) ∧
      journalTransferRcvAndWriteFile (.receiving [some [1], some [2], some []]) none =
        some (0, some [1, 2]) ∧
      ∃ sent, (TransferServerCalls.taking 2).send = some sent ∧ 2 ≤ sent ∧
        delivered [some [1], some [2], some []] = [1, 2] := by
  have hserver : journalTransferRunReceiver (.taking 2) twoByteJournal = some (0, [1, 2]) :=
    runReceiver_twoByteJournal 2
  have hclient : journalTransferRcvAndWriteFile (.receiving [some [1], some [2], some []]) none =
      some (0, some [1, 2]) := rfl
  have hkernel : Delivery [1, 2] ((TransferClientCalls.receiving
      [some [1], some [2], some []]).recvs.map RecvCall.recv) :=
    .data [1] (by decide) (by decide) (.data [2] (by decide) (by decide) .eof)
  have hfull : ∀ r ∈ (TransferClientCalls.receiving [some [1], some [2], some []]).recvs,
      r.Full := by
    intro r hr bytes hbytes
    obtain ⟨result, -, rfl⟩ := List.mem_map.mp hr
    obtain rfl : result = some bytes := hbytes
    rfl
  obtain ⟨sent, out, hsend, hout, -, hiff, -⟩ := journal_transfer_complete_iff
    holds_twoByteJournal (by decide) hserver hkernel hfull hclient
  obtain ⟨htook, hall⟩ := hiff.mp (Option.some.inj hout).symm
  exact ⟨hserver, hclient, sent, hsend, htook, hall⟩

/-- **Two truncated exports that report success.** `send` takes one byte of two, the other is never
sent; or `send` takes both, and `recv` fails after the first. Both programs return zero, and the
file holds one byte.
Source: `journal_transfer.c`, `journal_transfer_run_receiver`, `journal_transfer_rcv_and_write_file`
Kind: C -/
theorem journal_transfer_truncated :
    Holds twoByteJournal.region [1, 2] ∧
    (journalTransferRunReceiver (.taking 1) twoByteJournal = some (0, [1]) ∧
      Delivery [1] [some [1], some []] ∧
      journalTransferRcvAndWriteFile (.receiving [some [1], some []]) none =
        some (0, some [1])) ∧
    journalTransferRunReceiver (.taking 2) twoByteJournal = some (0, [1, 2]) ∧
      Delivery [1, 2] [some [1], none] ∧
      journalTransferRcvAndWriteFile (.receiving [some [1], none]) none = some (0, some [1]) :=
  ⟨holds_twoByteJournal,
    ⟨runReceiver_twoByteJournal 1, .data [1] (by decide) (by decide) .eof, rfl⟩,
    runReceiver_twoByteJournal 2, .data [1] (by decide) (by decide) .error, rfl⟩

end CpuMonitor.Server
