import CpuMonitor.Server.Service

/-!
# Is the journal a text of lines?

`server/server.c`: `main` writes a greeting into the new journal, and `worker_on_message` one record
per request. Each of these texts ends with a newline. The greeting is written with `strlen` bytes,
the records with `strlen + 1`.

* **The requests** `LoggedRequest`: a call of the handler whose system calls succeed, on a message
  of one of the two known types, and the line it should leave in the log (`LoggedRequest.line`).
* **The code's model** `serverLog`, and the bytes that it leaves (`serverLog_holds`).
* `log_is_lines_iff` — those bytes are the expected lines exactly if there was no request: every
  record carries its terminator into the journal.
* `log_without_terminators` — without these bytes they are the expected lines, as long as no text
  is cut by `snprintf`.
-/

namespace CpuMonitor.Server

open CpuMonitor.Lib CpuMonitor.Network

/-! ## The requests and their lines -/

/-- The text that `main` writes has no terminator in it.
Source: `server.c`, `main`
Kind: L -/
theorem nulFree_greeting : ∀ b ∈ ascii "Hello from server journal\n", b ≠ 0 := by simp [ascii]

/-- The text `main` writes first.
Source: `server.c`, `main`
Kind: D -/
def greeting : CString := .lit "Hello from server journal\n" nulFree_greeting

/-- Its line.
Source: `server.c`, `main`
Kind: D -/
def greetingLine : List UInt8 := ascii "Hello from server journal"

/-- A call of `worker_on_message`: what it gets from the system, and the message.
Source: `server.c`, `main`, `worker_on_message`
Kind: D -/
structure LoggedRequest where
  env : HandlerEnv
  message : Message
  known : message.header.type = MessageType.none.code ∨
    message.header.type = MessageType.pid.code
  /-- The accesses of the call are in the buffer of the message. -/
  inBounds : ∃ a m', workerAnswer env message = some a ∧ a.reply env = some m'
  ok : env.AllOk
  calls : env.journalCalls = .allOk
  time : newline ∉ env.timeStr.bytes

namespace LoggedRequest

variable (r : LoggedRequest)

/-- The pid in the message.
Source: `server.c`, `worker_on_message`
Kind: D -/
def pid : BitVec 32 := BitVec.ofNat 32 (leValue (slice r.message.data 0 sizeofPid))

/-- The line that the log should get: `TIME: invalid request`, `TIME: PID not found` or
`TIME: PID %USAGE`.
Source: `Readme.md`, "Journal Logging"
Kind: D -/
def line : List UInt8 :=
  r.env.timeStr.bytes ++
    if r.message.header.type = MessageType.none.code then ascii ": invalid request"
    else ascii ": " ++ decimalInt r.pid.toInt ++
      if r.env.usage r.pid < 0 then ascii " not found" else ascii " %" ++ fixed6 (r.env.usage r.pid)

/-- The record the code writes.
Source: `server.c`, `worker_on_message`
Kind: D -/
def record : BufferText :=
  if r.message.header.type = MessageType.none.code then recordInvalid r.env
  else recordPid r.env r.pid

/-- The record is the line and a newline, as far as they fit in the handler's buffer.
Source: `server.c`, `main`, `worker_on_message`
Kind: L -/
theorem bytes_record : r.record.1.bytes = (r.line ++ [newline]).take (textBufferSize - 1) := by
  have hinvalid : ascii ": invalid request\n" = ascii ": invalid request" ++ [newline] := by
    decide +kernel
  have hfound : ascii " not found\n" = ascii " not found" ++ [newline] := by decide +kernel
  have hend : ascii "\n" = [newline] := by decide +kernel
  unfold record line recordPid
  split_ifs
  · simp only [recordInvalid, printText, CString.snprintf, CString.concat, CString.lit,
      List.map_cons, List.map_nil, List.flatten_cons, List.flatten_nil, List.append_nil, hinvalid,
      List.append_assoc]
  · simp only [recordNotFound, printText, CString.snprintf, CString.concat, CString.lit,
      CString.ofInt, CString.ofNumeric, List.map_cons, List.map_nil, List.flatten_cons,
      List.flatten_nil, List.append_nil, hfound, List.append_assoc]
  · simp only [recordUsage, printText, CString.snprintf, CString.concat, CString.lit,
      CString.ofInt, CString.ofRat, CString.ofNumeric, List.map_cons, List.map_nil,
      List.flatten_cons, List.flatten_nil, List.append_nil, hend, List.append_assoc]

/-- A line contains neither a newline nor a NUL.
Source: `server.c`, `main`, `worker_on_message`
Kind: L -/
theorem line_plain {b : UInt8} (hb : b ∈ r.line) : b ≠ 0 ∧ b ≠ newline := by
  have hnumeric : ∀ {c : UInt8}, Numeric c → c ≠ 0 ∧ c ≠ newline := by
    intro c hc
    have hlt := hc.lt.1
    constructor
    · rintro rfl
      exact absurd hlt (by decide)
    · rintro rfl
      exact absurd hlt (by decide)
  have hplain : ∀ s ∈ [": invalid request", ": ", " not found", " %"],
      0 ∉ ascii s ∧ newline ∉ ascii s := by decide +kernel
  have htext : ∀ s ∈ [": invalid request", ": ", " not found", " %"], ∀ c ∈ ascii s,
      c ≠ 0 ∧ c ≠ newline := by
    intro s hs c hc
    obtain ⟨hnul, hnewline⟩ := hplain s hs
    exact ⟨ne_of_mem_of_not_mem hc hnul, ne_of_mem_of_not_mem hc hnewline⟩
  unfold line at hb
  rcases List.mem_append.mp hb with hb | hb
  · refine ⟨r.env.timeStr.nul_free b hb, ?_⟩
    rintro rfl
    exact r.time hb
  split_ifs at hb
  · exact htext _ (by simp) b hb
  all_goals rw [List.mem_append, List.mem_append] at hb
  · rcases hb with (hb | hb) | hb
    · exact htext _ (by simp) b hb
    · exact hnumeric (numeric_decimalInt hb)
    · exact htext _ (by simp) b hb
  · rcases hb with (hb | hb) | hb
    · exact htext _ (by simp) b hb
    · exact hnumeric (numeric_decimalInt hb)
    · rcases List.mem_append.mp hb with hb | hb
      · exact htext _ (by simp) b hb
      · exact hnumeric (numeric_fixed6 hb)

/-- The answer to a request has the record.
Source: `server.c`, `main`, `worker_on_message`
Kind: L -/
theorem record_of_answer {a : Answer} (h : workerAnswer r.env r.message = some a) :
    a.record = some r.record := by
  unfold record
  by_cases hnone : r.message.header.type = MessageType.none.code
  · rw [workerAnswer_of_none r.ok hnone] at h
    cases h
    rw [if_pos hnone]
  · -- the pid was read, so it is the one in the first four bytes
    have htype := r.known.resolve_left hnone
    have hpid : messagePid r.message = some r.pid := by
      rw [workerAnswer, if_neg hnone, if_pos htype] at h
      obtain ⟨pid, hpid, -⟩ := Option.bind_eq_some_iff.mp h
      obtain ⟨bytes, hload, -⟩ := Option.bind_eq_some_iff.mp hpid
      have hle := (length_of_load hload).1
      exact messagePid_eq (by omega)
    rw [workerAnswer_of_pid r.ok htype hpid] at h
    cases h
    rw [if_neg hnone]

/-- The handler writes the record of the request, with its terminator.
Source: `server.c`, `main`, `worker_on_message`
Kind: P -/
theorem workerOnMessage_logs {j : Journal} {content : List UInt8} (hholds : Holds j.region content)
    (hroom : sizeofSizeT + content.length + r.record.1.stored.length ≤ j.maxSize) :
    ∃ m' region, workerOnMessage r.env j r.message = some (m', { j with region := region }) ∧
      Holds region (content ++ r.record.1.stored) := by
  obtain ⟨a, m', hanswer, hreply⟩ := r.inBounds
  obtain ⟨region, hcall, hregion⟩ :=
    workerOnMessage_of_fits r.calls hanswer (r.record_of_answer hanswer) hreply hholds hroom
  exact ⟨m', region, hcall, hregion⟩

end LoggedRequest

/-! ## The log -/

/-- The requests handled by one worker, one after the other.
Source: `server.c`, `main`, `worker_on_message`
Kind: D -/
def handleAll : List LoggedRequest → Journal → Option Journal
  | [], j => some j
  | r :: requests, j => do
      let (_, j') ← workerOnMessage r.env j r.message
      handleAll requests j'

/-- The journal after the greeting and the requests.
Source: `server.c`, `main`, `worker_on_message`
Kind: D -/
def serverLog (j : Journal) (requests : List LoggedRequest) : Option Journal := do
  let (_, j') ← journalWrite .allOk j greeting.bytes
  handleAll requests j'

/-- The bytes of the records.
Source: `server.c`, `worker_on_message`
Kind: D -/
def recordBytes (requests : List LoggedRequest) : List UInt8 :=
  (requests.map fun r => r.record.1.stored).flatten

/-- The bytes of the log.
Source: `server.c`, `worker_on_message`
Kind: D -/
def logContent (requests : List LoggedRequest) : List UInt8 :=
  greeting.bytes ++ recordBytes requests

/-- The lines that the log should have.
Source: none: infrastructure
Kind: D -/
def logLines (requests : List LoggedRequest) : List (List UInt8) :=
  greetingLine :: requests.map LoggedRequest.line

/-- Every request appends its record.
Source: `server.c`, `main`, `worker_on_message`
Kind: P -/
theorem handleAll_holds (requests : List LoggedRequest) {j : Journal} {content : List UInt8}
    (hholds : Holds j.region content)
    (hroom : sizeofSizeT + content.length + (recordBytes requests).length ≤ j.maxSize) :
    ∃ j', handleAll requests j = some j' ∧
      Holds j'.region (content ++ recordBytes requests) := by
  induction requests generalizing j content with
  | nil => exact ⟨j, rfl, by simpa [recordBytes] using hholds⟩
  | cons r requests ih =>
      have hcons : recordBytes (r :: requests) = r.record.1.stored ++ recordBytes requests := by
        simp [recordBytes]
      rw [hcons, List.length_append] at hroom
      obtain ⟨m', region, hcall, hregion⟩ := r.workerOnMessage_logs hholds (by omega)
      obtain ⟨j', hrest, hj'⟩ := ih (j := { j with region := region }) hregion (by
        show _ ≤ j.maxSize
        rw [List.length_append]
        omega)
      refine ⟨j', by simp [handleAll, hcall, hrest], ?_⟩
      rwa [hcons, ← List.append_assoc]

/-- The journal of the server holds the greeting and the records.
Source: `server.c`, `main`, `worker_on_message`
Kind: P -/
theorem serverLog_holds {maxSize : ℕ} {j₀ : Journal} (h64 : maxSize < 2 ^ 64)
    (hcreate : journalCreate .allOk maxSize = some j₀) (requests : List LoggedRequest)
    (hroom : sizeofSizeT + (logContent requests).length ≤ maxSize) :
    ∃ j, serverLog j₀ requests = some j ∧ Holds j.region (logContent requests) := by
  obtain ⟨hsize, hempty⟩ := holds_of_create h64 hcreate
  rw [logContent, List.length_append] at hroom
  have hfits : sizeofSizeT + ([] : List UInt8).length + greeting.bytes.length ≤ j₀.maxSize := by
    rw [hsize, List.length_nil]
    omega
  obtain ⟨region, hwrite, hregion⟩ := journalWrite_of_room hempty hfits
  rw [List.nil_append] at hregion
  obtain ⟨j, hhandle, hj⟩ := handleAll_holds requests (j := { j₀ with region := region }) hregion
    (show _ ≤ j₀.maxSize by omega)
  exact ⟨j, by simp [serverLog, hwrite, hhandle], hj⟩

/-! ## The lines of the log -/

/-- The greeting is its line and a newline.
Source: `server.c`, `main`
Kind: L -/
theorem bytes_greeting : greeting.bytes = greetingLine ++ [newline] := rfl

/-- The line of the greeting is one line.
Source: `server.c`, `main`
Kind: L -/
theorem newline_not_mem_greetingLine : newline ∉ greetingLine := by decide

/-- It has no terminator in it.
Source: `server.c`, `main`
Kind: L -/
theorem nul_not_mem_greetingLine : (0 : UInt8) ∉ greetingLine := by decide

/-- No line of the log has a newline in it.
Source: `server.c`, `main`, `worker_on_message`
Kind: L -/
theorem newline_not_mem_logLines {requests : List LoggedRequest} :
    ∀ line ∈ logLines requests, newline ∉ line := by
  intro line hline
  rcases List.mem_cons.mp hline with rfl | hline
  · exact newline_not_mem_greetingLine
  · obtain ⟨r, -, rfl⟩ := List.mem_map.mp hline
    exact fun hmem => (r.line_plain hmem).2 rfl

/-- The text of the lines has no terminator in it.
Source: `server.c`, `main`, `worker_on_message`
Kind: L -/
theorem nul_not_mem_unlines_logLines (requests : List LoggedRequest) :
    0 ∉ unlines (logLines requests) := by
  intro hmem
  obtain ⟨bytes, hbytes, hmem⟩ := List.mem_flatten.mp hmem
  obtain ⟨line, hline, rfl⟩ := List.mem_map.mp hbytes
  rcases List.mem_append.mp hmem with hmem | hmem
  · rcases List.mem_cons.mp hline with rfl | hline
    · exact nul_not_mem_greetingLine hmem
    · obtain ⟨r, -, rfl⟩ := List.mem_map.mp hline
      exact (r.line_plain hmem).1 rfl
  · exact absurd (List.mem_singleton.mp hmem) (by decide)

/-- The bytes of the log are those of its lines exactly if there is no request.
Source: `server.c`, `main`, `worker_on_message`
Kind: L -/
theorem logContent_eq_unlines_iff (requests : List LoggedRequest) :
    logContent requests = unlines (logLines requests) ↔ requests = [] := by
  constructor
  · intro heq
    cases requests with
    | nil => rfl
    | cons r requests =>
        -- the terminator of the first record is in the log
        have hnul : (0 : UInt8) ∈ logContent (r :: requests) := by
          simp [logContent, recordBytes, CString.stored]
        rw [heq] at hnul
        exact absurd hnul (nul_not_mem_unlines_logLines _)
  · rintro rfl
    simp [logContent, recordBytes, logLines, bytes_greeting]

/-- **The journal is a text with one line per request exactly if there is no request.** For every
sequence of requests and a journal with room for their records: a read returns the bytes of the log,
and their pieces between the newlines are the greeting and one line per request (with nothing behind
the last newline) exactly if the sequence is empty, since each record is written with its
terminator.
Source: `server.c`, `worker_on_message` (`strlen(buffer) + 1`), `main`
Kind: P
Hyps: the journal has room -/
theorem log_is_lines_iff {maxSize : ℕ} {j₀ : Journal} (h64 : maxSize < 2 ^ 64)
    (hcreate : journalCreate .allOk maxSize = some j₀) (requests : List LoggedRequest)
    (hroom : sizeofSizeT + (logContent requests).length ≤ maxSize) :
    ∃ j content, serverLog j₀ requests = some j ∧
      (∀ buffer : List UInt8, maxSize ≤ buffer.length →
        journalRead .allOk j buffer buffer.length =
          some (.success, content ++ buffer.drop content.length, content.length)) ∧
      (content.splitOn newline = logLines requests ++ [[]] ↔ requests = []) := by
  obtain ⟨j, hlog, hholds⟩ := serverLog_holds h64 hcreate requests hroom
  refine ⟨j, logContent requests, hlog, ?_, ?_⟩
  · intro buffer hbuffer
    exact journalRead_of_le hholds (hroom.trans hbuffer) le_rfl
  · rw [splitOn_eq_iff newline_not_mem_logLines]
    exact logContent_eq_unlines_iff requests

/-- **Without the terminators the journal is the text of the lines**, if every line and its newline
fit in the handler's buffer.
Source: `server.c`, `main`, `worker_on_message`
Kind: P -/
theorem log_without_terminators {requests : List LoggedRequest}
    (hfit : ∀ r ∈ requests, r.line.length + 1 < textBufferSize) :
    ((logContent requests).filter (· ≠ 0)).splitOn newline = logLines requests ++ [[]] := by
  have hgreeting : greeting.bytes.filter (· ≠ 0) = greeting.bytes :=
    List.filter_eq_self.mpr fun b hb => by simpa using greeting.nul_free b hb
  have hrecords : (recordBytes requests).filter (· ≠ 0) =
      unlines (requests.map LoggedRequest.line) := by
    induction requests with
    | nil => rfl
    | cons r requests ih =>
        have hcut : r.record.1.bytes = r.line ++ [newline] := by
          rw [r.bytes_record, List.take_of_length_le]
          have := hfit r List.mem_cons_self
          rw [List.length_append, List.length_singleton]
          omega
        have hrest := ih fun r' hr' => hfit r' (List.mem_cons_of_mem _ hr')
        rw [recordBytes] at hrest
        rw [recordBytes, List.map_cons, List.flatten_cons, List.filter_append,
          CString.filter_stored, hcut, hrest, List.map_cons, unlines_cons, List.append_assoc]
        rfl
  rw [splitOn_eq_iff newline_not_mem_logLines, logContent, List.filter_append, hgreeting, hrecords,
    logLines, unlines_cons, bytes_greeting, List.append_assoc]
  rfl

/-! ## A log -/

/-- A time as `strftime` writes it stands in one line.
Source: none: infrastructure
Kind: L -/
theorem newline_not_mem_midnight : newline ∉ ascii "2025-01-01 00:00:00" := by decide

/-- It has no terminator in it.
Source: none: infrastructure
Kind: L -/
theorem nulFree_midnight : ∀ b ∈ ascii "2025-01-01 00:00:00", b ≠ 0 := by simp [ascii]

/-- It is short enough for its buffer.
Source: none: infrastructure
Kind: L -/
theorem strlen_midnight_lt :
    (CString.lit "2025-01-01 00:00:00" nulFree_midnight).strlen < timeStrSize := by
  show (ascii "2025-01-01 00:00:00").length < timeStrSize
  decide

/-- Midnight.
Source: none: infrastructure
Kind: D -/
def midnightEnv : HandlerEnv :=
  { quietEnv with
    timeStr := .lit "2025-01-01 00:00:00" nulFree_midnight, timeStr_lt := strlen_midnight_lt }

/-- At midnight the calls of the library succeed.
Source: none: infrastructure
Kind: L -/
theorem midnightEnv_allOk : midnightEnv.AllOk := ⟨rfl, rfl, rfl⟩

/-- A message without a pid.
Source: none: infrastructure
Kind: D -/
def emptyMessage : Message :=
  ⟨⟨MessageType.none.code, 0, ⟨0, 0, 0, 0⟩, 0⟩, List.replicate maxPayload 0⟩

/-- The worker function has an answer and a reply for this message.
Source: none: infrastructure
Kind: L -/
theorem emptyMessage_inBounds :
    ∃ a m', workerAnswer midnightEnv emptyMessage = some a ∧ a.reply midnightEnv = some m' := by
  obtain ⟨a, m', hanswer, hreply, -⟩ :=
    reply_of_allOk (m := emptyMessage) midnightEnv_allOk (List.length_replicate ..).ge
  exact ⟨a, m', hanswer, hreply⟩

/-- A request without a pid at midnight.
Source: none: infrastructure
Kind: D -/
def midnightRequest : LoggedRequest where
  env := midnightEnv
  message := emptyMessage
  known := .inl rfl
  inBounds := emptyMessage_inBounds
  ok := midnightEnv_allOk
  calls := rfl
  time := newline_not_mem_midnight

/-- The greeting alone is a line.
Source: `server.c`, `main`, `worker_on_message`
Kind: C -/
theorem log_is_lines_greeting :
    ∃ j₀ j content, journalCreate .allOk 64 = some j₀ ∧ serverLog j₀ [] = some j ∧
      journalRead .allOk j (List.replicate 64 0) 64 =
        some (.success, content ++ (List.replicate 64 0).drop content.length, content.length) ∧
      content.splitOn newline = [greetingLine, []] := by
  obtain ⟨r, hcreate, -⟩ := journalCreate_holds (show sizeofSizeT < 64 by decide) (by norm_num)
  obtain ⟨j, content, hlog, hread, hlines⟩ :=
    log_is_lines_iff (by norm_num) hcreate [] (by decide +kernel)
  exact ⟨_, j, content, hcreate, hlog, hread (List.replicate 64 0) (by decide), hlines.mpr rfl⟩

/-- The log of this request: two lines and a terminator.
Source: none: infrastructure
Kind: L -/
theorem logContent_midnight :
    logContent [midnightRequest] = unlines [ascii "Hello from server journal",
      ascii "2025-01-01 00:00:00: invalid request"] ++ [0] := by
  decide +kernel

/-- One request: a NUL stands behind its line.
Source: `server.c`, `main`, `worker_on_message`
Kind: C -/
theorem log_has_terminator :
    ∃ j₀ j, journalCreate .allOk 128 = some j₀ ∧ serverLog j₀ [midnightRequest] = some j ∧
      journalContent j.region = unlines [ascii "Hello from server journal",
        ascii "2025-01-01 00:00:00: invalid request"] ++ [0] ∧
      (journalContent j.region).splitOn newline = [ascii "Hello from server journal",
        ascii "2025-01-01 00:00:00: invalid request", [0]] := by
  obtain ⟨r, hcreate, -⟩ := journalCreate_holds (show sizeofSizeT < 128 by decide) (by norm_num)
  have hroom : sizeofSizeT + (logContent [midnightRequest]).length ≤ 128 := by
    rw [logContent_midnight]
    decide +kernel
  obtain ⟨j, hlog, hholds⟩ := serverLog_holds (by norm_num) hcreate [midnightRequest] hroom
  have hcontent := hholds.journalContent.trans logContent_midnight
  refine ⟨_, j, hcreate, hlog, hcontent, ?_⟩
  rw [hcontent]
  decide +kernel

end CpuMonitor.Server
