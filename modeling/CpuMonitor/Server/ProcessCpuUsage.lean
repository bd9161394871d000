import CpuMonitor.Lib.Scanf
import CpuMonitor.Server.Worker

/-!
# The CPU usage of a process

`server/process_cpu_usage.c`: the usage is the share of the process in the CPU time between two
readings of `/proc/stat` and `/proc/<pid>/stat`. Each reading is one line, cut at the size of a
fixed buffer and scanned.

* **The code's model** `getTotalTime`, `getProcessTime`, `getProcessCpuUsage` (the body is
  `cpuUsageWith`, for any arithmetic). A sum that overflows is undefined (`none`); an error is the
  number `-1`.
* **The lines of the kernel** `CpuLine`, `StatLine`: the printed fields with their ranges, and
  whatever follows them.
* **The buffers are large enough** (`CpuLine.length_head_lt`, `StatLine.length_head_lt`): the
  fields that are read lie before the cut. So the CPU times are the exact sums (`getTotalTime_eq`,
  `getProcessTime_of_not_whiteName`), for a process whose name has no white space.
* **The name of the process is not skipped as a whole.** `%*s` ends at white space in it; the
  numbers are then looked for in the rest of the name, which is too short for them
  (`StatLine.scan_of_whiteName`). Such a process is reported as not found
  (`responsePid_of_whiteName`).
-/

namespace CpuMonitor.Server

open CpuMonitor.Lib

/-! ## The code's model -/

/-- A file as one call of `fopen`, `fgets` and `fclose` finds it.
Source: none: infrastructure
Kind: D -/
inductive ProcFile
  /-- `fopen` fails. -/
  | missing
  /-- `fopen` succeeds, `fgets` fails. -/
  | unreadable
  | content (bytes : List UInt8)

/-- The files at one moment.
Source: none: infrastructure
Kind: D -/
abbrev ProcFs : Type := CString → ProcFile

/-- The line read into a buffer of `size` bytes.
Source: none: infrastructure
Kind: D -/
def ProcFile.readLine (size : ℕ) : ProcFile → Option CString
  | .missing => none
  | .unreadable => none
  | .content bytes => fgets size bytes

/-- The sum of two `long long`s; `none` is an overflow.
Source: `process_cpu_usage.c`, `get_total_time`, `get_process_time`
Kind: D -/
def addLongLong (a b : ℤ) : Option ℤ :=
  if -2 ^ 63 ≤ a + b ∧ a + b < 2 ^ 63 then some (a + b) else none

/-- The format of `get_total_time`.
Source: `process_cpu_usage.c`, `get_total_time`
Kind: D -/
def totalTimeFormat : String := "cpu  %lld %lld %lld %lld %lld %lld %lld %lld"

/-- The format of `get_process_time`.
Source: `process_cpu_usage.c`, `get_process_time`
Kind: D -/
def processTimeFormat : String :=
  "%llu %*s %*c %*llu %*llu %*llu %*llu %*llu %*llu %*llu %*llu %*llu %*llu %lld %lld"

/-- `sizeof(buffer)` in `get_total_time`.
Source: `process_cpu_usage.c`, `get_total_time`
Kind: D -/
def totalTimeBufferSize : ℕ := 128

/-- `sizeof(buffer)` in `get_process_time`.
Source: `process_cpu_usage.c`, `get_process_time`
Kind: D -/
def processTimeBufferSize : ℕ := 256

/-- `sizeof(path)` in `get_process_time`.
Source: `process_cpu_usage.c`, `get_process_time`
Kind: D -/
def pathSize : ℕ := 64

/-- The file of the whole system.
Source: `process_cpu_usage.c`, `get_total_time`
Kind: D -/
def totalTimePath : CString := .lit "/proc/stat" (by simp [ascii])

/-- `snprintf(path, sizeof(path), "/proc/%d/stat", pid)`.
Source: `process_cpu_usage.c`, `get_process_time`
Kind: D -/
def processTimePath (pid : BitVec 32) : CString :=
  .snprintf pathSize (.concat [.lit "/proc/" (by simp [ascii]), .ofInt pid.toInt,
    .lit "/stat" (by simp [ascii])])

/-- Source: `process_cpu_usage.c`, `get_total_time`
Kind: D
Fidelity: exact -/
def getTotalTime (fs : ProcFs) : Option ℤ :=
  match (fs totalTimePath).readLine totalTimeBufferSize with
  | none => some (-1)
  | some buffer =>
      match sscanf buffer totalTimeFormat with
      | [user, nice, system, idle, iowait, irq, softirq, steal] =>
          [nice, system, idle, iowait, irq, softirq, steal].foldlM addLongLong user
      | _ => some (-1)

/-- Source: `process_cpu_usage.c`, `get_process_time`
Kind: D
Fidelity: exact -/
def getProcessTime (fs : ProcFs) (pid : BitVec 32) : Option ℤ :=
  match (fs (processTimePath pid)).readLine processTimeBufferSize with
  | none => some (-1)
  | some buffer =>
      match sscanf buffer processTimeFormat with
      | [_, utime, stime] => addLongLong utime stime
      | _ => some (-1)

/-- The files at the four moments at which `get_process_cpu_usage` reads one.
Source: `process_cpu_usage.c`, `get_process_cpu_usage`
Kind: D -/
structure UsageReadings where
  startTotal : ProcFs
  startProc : ProcFs
  endTotal : ProcFs
  endProc : ProcFs

/-- The quotient; `none` is a division by zero.
Source: `process_cpu_usage.c`, `get_process_cpu_usage`
Kind: D -/
def quotient (a b : ℚ) : Option ℚ := if b = 0 then none else some (a / b)

/-- `get_process_cpu_usage` over its four readings (`none` is one without a defined outcome) and the
way the percentage of the two differences is computed.
Source: `process_cpu_usage.c`, `get_process_cpu_usage`
Kind: D
Fidelity: exact, for the arithmetic `percent` -/
def cpuUsageWith (percent : ℤ → ℤ → Option ℚ) (startTotal startProc endTotal endProc : Option ℤ) :
    Option ℚ := do
  let startTotal ← startTotal
  let startProc ← startProc
  if startTotal = -1 ∨ startProc = -1 then some (-1)
  else
    let endTotal ← endTotal
    let endProc ← endProc
    if endTotal = -1 ∨ endProc = -1 then some (-1)
    else
      let totalDiff ← addLongLong endTotal (-startTotal)
      let procDiff ← addLongLong endProc (-startProc)
      if totalDiff ≤ 0 then some 0
      else percent procDiff totalDiff

/-- `(100.0 * proc_diff) / total_diff`, without roundings.
Source: `process_cpu_usage.c`, `get_process_cpu_usage`
Kind: D -/
def exactPercent (procDiff totalDiff : ℤ) : Option ℚ := quotient (100 * procDiff) totalDiff

/-- The function on the files.
Source: `process_cpu_usage.c`, `get_process_cpu_usage`
Kind: D
Fidelity: the exact quotient; the code's is the nearest `double` -/
def getProcessCpuUsage (readings : UsageReadings) (pid : BitVec 32) : Option ℚ :=
  cpuUsageWith exactPercent (getTotalTime readings.startTotal)
    (getProcessTime readings.startProc pid) (getTotalTime readings.endTotal)
    (getProcessTime readings.endProc pid)

/-! ## The lines of the kernel -/

/-- The first line of `/proc/stat` and what follows it: `cpu`, two blanks and the counters, of
which newer kernels print more than eight.
Source: none: infrastructure
Kind: D -/
structure CpuLine where
  counters : List ℕ
  eight_le : 8 ≤ counters.length
  counters_lt : ∀ c ∈ counters, c < 10 ^ 14
  rest : List UInt8
  rest_ends : EndsNumber rest

/-- The bytes of the file.
Source: none: infrastructure
Kind: D -/
def CpuLine.bytes (l : CpuLine) : List UInt8 :=
  ascii "cpu " ++ printFields (l.counters.map Int.ofNat) ++ l.rest

/-- A line of `/proc/<pid>/stat` up to the system time, and what follows it, with the types of
`proc(5)`.
Source: none: infrastructure
Kind: D -/
structure StatLine where
  pid : ℕ
  pid_lt : pid < 2 ^ 31
  /-- The name of the process. -/
  comm : List UInt8
  comm_length : comm.length ≤ 15
  comm_bytes : ∀ b ∈ comm, b ≠ 0 ∧ b ≠ 10
  /-- The state, a letter. -/
  state : UInt8
  state_letter : 65 ≤ state ∧ state ≤ 90 ∨ 97 ≤ state ∧ state ≤ 122
  ppid : BitVec 32
  pgrp : BitVec 32
  session : BitVec 32
  ttyNr : BitVec 32
  tpgid : BitVec 32
  flags : BitVec 32
  minflt : BitVec 64
  cminflt : BitVec 64
  majflt : BitVec 64
  cmajflt : BitVec 64
  utime : ℕ
  stime : ℕ
  time_lt : utime + stime < 2 ^ 63
  rest : List UInt8
  rest_ends : EndsNumber rest

namespace StatLine

variable (l : StatLine)

/-- The ten numbers between the state and the times.
Source: none: infrastructure
Kind: D -/
def skipped : List ℤ :=
  [l.ppid.toInt, l.pgrp.toInt, l.session.toInt, l.ttyNr.toInt, l.tpgid.toInt, l.flags.toNat,
    l.minflt.toNat, l.cminflt.toNat, l.majflt.toNat, l.cmajflt.toNat]

/-- Everything after the name: `)`, the state and the numbers.
Source: none: infrastructure
Kind: D -/
def tail (rest : List UInt8) : List UInt8 :=
  41 :: 32 :: l.state :: (printFields (l.skipped ++ [(l.utime : ℤ), (l.stime : ℤ)]) ++ rest)

/-- The bytes of the line, with `rest` after the system time.
Source: none: infrastructure
Kind: D -/
def bytesWith (rest : List UInt8) : List UInt8 :=
  decimal l.pid ++ 32 :: 40 :: (l.comm ++ l.tail rest)

/-- The bytes of the file.
Source: none: infrastructure
Kind: D -/
def bytes : List UInt8 := l.bytesWith l.rest

/-- The name of the process has white space in it.
Source: none: infrastructure
Kind: D -/
def WhiteName : Prop := ∃ b ∈ l.comm, isSpace b = true

/-- Whether a name has white space in it can be computed.
Source: none: infrastructure
Kind: D -/
instance : Decidable l.WhiteName := by
  unfold WhiteName
  infer_instance

end StatLine

/-! ## The buffers are large enough -/

namespace CpuLine

variable (l : CpuLine)

/-- There are eight counters to read.
Source: none: infrastructure
Kind: L -/
theorem length_first : (l.counters.take 8).length = 8 := by
  rw [List.length_take, min_eq_left l.eight_le]

/-- Each of them has at most fourteen digits.
Source: none: infrastructure
Kind: L -/
theorem first_lt : ∀ c ∈ l.counters.take 8, c < 10 ^ 14 :=
  fun c hc => l.counters_lt c (List.mem_of_mem_take hc)

/-- The line up to the eighth counter.
Source: none: infrastructure
Kind: D -/
def head : List UInt8 := ascii "cpu " ++ printFields ((l.counters.take 8).map Int.ofNat)

/-- It lies in the buffer.
Source: `process_cpu_usage.c`, `get_total_time`
Kind: L -/
theorem length_head_lt : l.head.length < totalTimeBufferSize := by
  have hfields : (printFields ((l.counters.take 8).map Int.ofNat)).length ≤
      ((l.counters.take 8).map Int.ofNat).length * 15 := by
    apply length_printFields_le
    intro z hz
    obtain ⟨c, hc, rfl⟩ := List.mem_map.mp hz
    rw [Int.ofNat_eq_natCast, decimalInt_natCast]
    exact length_decimal_le (by norm_num) (l.first_lt c hc)
  have hcpu : (ascii "cpu ").length = 4 := by decide
  rw [List.length_map, l.length_first] at hfields
  rw [head, List.length_append, hcpu, totalTimeBufferSize]
  omega

/-- It has neither a terminator nor a newline in it.
Source: none: infrastructure
Kind: L -/
theorem head_plain : ∀ b ∈ l.head, b ≠ 0 ∧ b ≠ 10 := by
  have hcpu : ∀ b ∈ ascii "cpu ", b ≠ 0 ∧ b ≠ 10 := by decide +kernel
  intro b hb
  rcases List.mem_append.mp hb with hb | hb
  · exact hcpu b hb
  · exact printFields_plain hb

/-- What follows the eighth counter: more of them, or the end of the line.
Source: none: infrastructure
Kind: L -/
theorem bytes_eq :
    l.bytes = l.head ++ (printFields ((l.counters.drop 8).map Int.ofNat) ++ l.rest) := by
  rw [head, ← List.append_assoc, List.append_assoc (ascii "cpu "), ← printFields_append,
    ← List.map_append, List.take_append_drop]
  rfl

/-- **What `get_total_time` scans**: the line, cut behind the eighth counter.
Source: `process_cpu_usage.c`, `get_total_time`
Kind: L -/
theorem readLine_eq : ∃ text rest, (ProcFile.content l.bytes).readLine totalTimeBufferSize =
    some text ∧ text.bytes = l.head ++ rest ∧ EndsNumber rest := by
  have hne : l.head ≠ [] := by simp [head, ascii]
  obtain ⟨text, rest, hread, hbytes, hcut⟩ := bytes_of_fgets hne l.head_plain l.length_head_lt
    (printFields ((l.counters.drop 8).map Int.ofNat) ++ l.rest)
  rw [← l.bytes_eq] at hread
  exact ⟨text, rest, hread, hbytes, (l.rest_ends.printFields_append _).of_isPrefix hcut⟩

end CpuLine

namespace StatLine

variable (l : StatLine)

/-- The line up to the system time lies in the buffer.
Source: `process_cpu_usage.c`, `get_process_time`
Kind: L -/
theorem length_head_lt : (l.bytesWith []).length < processTimeBufferSize := by
  have hpid : (decimal l.pid).length ≤ 10 :=
    length_decimal_le (by norm_num) (l.pid_lt.trans (by norm_num))
  have hint : ∀ x : BitVec 32, (decimalInt x.toInt).length ≤ 11 := by
    intro x
    apply length_decimalInt_le (by norm_num)
    have hlo := BitVec.le_toInt x
    have hhi := BitVec.toInt_lt (x := x)
    norm_num at hlo hhi ⊢
    omega
  have hflags : (decimal l.flags.toNat).length ≤ 10 :=
    length_decimal_le (by norm_num) (l.flags.isLt.trans (by norm_num))
  have hfault : ∀ x : BitVec 64, (decimal x.toNat).length ≤ 20 := fun x =>
    length_decimal_le (by norm_num) (x.isLt.trans (by norm_num))
  have htime := l.time_lt
  have hutime : (decimal l.utime).length ≤ 19 :=
    length_decimal_le (by norm_num) (by norm_num at htime ⊢; omega)
  have hstime : (decimal l.stime).length ≤ 19 :=
    length_decimal_le (by norm_num) (by norm_num at htime ⊢; omega)
  have hcomm := l.comm_length
  have := hint l.ppid
  have := hint l.pgrp
  have := hint l.session
  have := hint l.ttyNr
  have := hint l.tpgid
  have := hfault l.minflt
  have := hfault l.cminflt
  have := hfault l.majflt
  have := hfault l.cmajflt
  simp only [bytesWith, tail, printFields, skipped, List.length_append, List.length_cons,
    List.cons_append, List.nil_append, List.flatMap_cons, List.flatMap_nil, List.append_nil,
    decimalInt_natCast, processTimeBufferSize]
  omega

/-- The line up to the times has neither a terminator nor a newline in it.
Source: none: infrastructure
Kind: L -/
theorem head_plain : ∀ b ∈ l.bytesWith [], b ≠ 0 ∧ b ≠ 10 := by
  have hstate : ∀ b : UInt8, (65 ≤ b ∧ b ≤ 90 ∨ 97 ≤ b ∧ b ≤ 122) → b ≠ 0 ∧ b ≠ 10 := by
    decide +kernel
  intro b hb
  simp only [bytesWith, tail, List.append_nil, List.mem_append, List.mem_cons] at hb
  rcases hb with hpid | rfl | rfl | hcomm | rfl | rfl | rfl | hfields
  · exact (numeric_decimal hpid).plain
  · decide
  · decide
  · exact l.comm_bytes b hcomm
  · decide
  · decide
  · exact hstate _ l.state_letter
  · exact printFields_plain hfields

/-- What follows the times stands at the end.
Source: none: infrastructure
Kind: L -/
theorem bytesWith_append (rest rest' : List UInt8) :
    l.bytesWith (rest ++ rest') = l.bytesWith rest ++ rest' := by
  simp [bytesWith, tail]

/-- **What `get_process_time` scans**: the line, cut behind the system time.
Source: `process_cpu_usage.c`, `get_process_time`
Kind: L -/
theorem readLine_eq : ∃ text rest, (ProcFile.content l.bytes).readLine processTimeBufferSize =
    some text ∧ text.bytes = l.bytesWith rest ∧ EndsNumber rest := by
  have hne : l.bytesWith [] ≠ [] := by simp [bytesWith]
  obtain ⟨text, rest, hread, hbytes, hcut⟩ :=
    bytes_of_fgets hne l.head_plain l.length_head_lt l.rest
  rw [← bytesWith_append, List.nil_append] at hread hbytes
  exact ⟨text, rest, hread, hbytes, l.rest_ends.of_isPrefix hcut⟩

end StatLine

/-! ## The scan of a line -/

/-- The numbers that `get_process_time` looks for behind the state: ten that it skips and the two
times.
Source: `process_cpu_usage.c`, `get_process_time`
Kind: D -/
def processTimeFields : List (Conversion × Bool) :=
  List.replicate 10 (.unsigned, false) ++ [(.signed, true), (.signed, true)]

/-- The format of `get_process_time`, conversion by conversion.
Source: `process_cpu_usage.c`, `get_process_time`
Kind: L -/
theorem parseFormat_processTimeFormat : parseFormat processTimeFormat.toList =
    .number .unsigned true :: .white :: .skipString :: .white :: .skipChar ::
      numberFields processTimeFields := by
  decide +kernel

/-- The format of `get_total_time`, conversion by conversion.
Source: `process_cpu_usage.c`, `get_total_time`
Kind: L -/
theorem parseFormat_totalTimeFormat : parseFormat totalTimeFormat.toList =
    .literal 99 :: .literal 112 :: .literal 117 :: .white ::
      numberFields (List.replicate 8 (.signed, true)) := by
  decide +kernel

/-- The eight counters are stored.
Source: `process_cpu_usage.c`, `get_total_time`
Kind: L -/
theorem scan_cpuLine {counters : List ℕ} (hlen : counters.length = 8)
    (h : ∀ c ∈ counters, c < 10 ^ 14) {rest : List UInt8} (hends : EndsNumber rest) :
    scan (parseFormat totalTimeFormat.toList)
      (ascii "cpu " ++ printFields (counters.map Int.ofNat) ++ rest) =
        counters.map Int.ofNat := by
  have hrange : ∀ z ∈ counters.map Int.ofNat, -2 ^ 63 ≤ z ∧ z < 2 ^ 63 := by
    intro z hz
    obtain ⟨c, hc, rfl⟩ := List.mem_map.mp hz
    have hlt := h c hc
    norm_num at hlt ⊢
    omega
  have hrow := scan_signedFields hends hrange
  rw [List.length_map, hlen] at hrow
  rw [parseFormat_totalTimeFormat]
  -- the two blanks in the format and the one before the first number are one stretch
  calc scan (.literal 99 :: .literal 112 :: .literal 117 :: .white ::
        numberFields (List.replicate 8 (.signed, true)))
        (ascii "cpu " ++ printFields (counters.map Int.ofNat) ++ rest)
      = scan (numberFields (List.replicate 8 (.signed, true)))
          (skipWhite (printFields (counters.map Int.ofNat) ++ rest)) := rfl
    _ = scan (numberFields (List.replicate 8 (.signed, true)))
          (printFields (counters.map Int.ofNat) ++ rest) := scan_numberFields_skipWhite _ _ _
    _ = counters.map Int.ofNat := hrow

namespace StatLine

variable (l : StatLine) {rest : List UInt8}

/-- Everything up to the name: the number of the process is stored, and `%*s` starts at the
parenthesis.
Source: `process_cpu_usage.c`, `get_process_time`
Kind: L -/
theorem scan_bytesWith (rest : List UInt8) :
    scan (parseFormat processTimeFormat.toList) (l.bytesWith rest) =
      Conversion.unsigned.value l.pid ::
        scan (.white :: .skipChar :: numberFields processTimeFields)
          ((l.comm ++ l.tail rest).dropWhile fun b => !isSpace b) := by
  have hends : EndsNumber (32 :: 40 :: (l.comm ++ l.tail rest)) := by
    intro b hb
    cases hb
    decide
  have hpid : scanInt (l.bytesWith rest) =
      some ((l.pid : ℤ), 32 :: 40 :: (l.comm ++ l.tail rest)) := by
    rw [bytesWith, ← decimalInt_natCast]
    exact scanInt_decimalInt _ hends
  rw [parseFormat_processTimeFormat, scan]
  simp only [Directive.run, hpid, Option.map_some, if_true, List.singleton_append]
  rfl

/-- A letter is no white space and no part of a number.
Source: `process_cpu_usage.c`, `get_process_time`
Kind: L -/
theorem state_plain : isSpace l.state = false ∧ ¬TakenByNumber l.state := by
  have hletter : ∀ b : UInt8, (65 ≤ b ∧ b ≤ 90 ∨ 97 ≤ b ∧ b ≤ 122) →
      isSpace b = false ∧ ¬(isSpace b = true ∨ isDigit b = true ∨ b = 45 ∨ b = 43) := by
    decide +kernel
  exact hletter _ l.state_letter

/-- The state is not read as a number.
Source: `process_cpu_usage.c`, `get_process_time`
Kind: L -/
theorem scanInt_state (more : List UInt8) : scanInt (32 :: l.state :: more) = none := by
  obtain ⟨-, hdigit, hminus, hplus⟩ : isSpace l.state = false ∧ isDigit l.state = false ∧
      l.state ≠ 45 ∧ l.state ≠ 43 := by
    simpa [TakenByNumber, not_or] using l.state_plain.2
  unfold scanInt
  rw [skipWhite_cons_of_isSpace (by decide), skipWhite_cons_of_not l.state_plain.1]
  simp [takeSign, hdigit, hminus, hplus]

/-- **A name without white space is skipped as a whole**, and the two times are stored.
Source: `process_cpu_usage.c`, `get_process_time`
Kind: L -/
theorem scan_of_not_whiteName (h : ¬l.WhiteName) (hends : EndsNumber rest) :
    scan (parseFormat processTimeFormat.toList) (l.bytesWith rest) =
      [Conversion.unsigned.value l.pid, l.utime, l.stime] := by
  have hcomm : ∀ b ∈ l.comm, (!isSpace b) = true := by
    intro b hb
    rw [Bool.not_eq_true', Bool.eq_false_iff]
    exact fun hspace => h ⟨b, hb, hspace⟩
  have hname : (l.comm ++ l.tail rest).dropWhile (fun b => !isSpace b) =
      32 :: l.state :: (printFields (l.skipped ++ [(l.utime : ℤ), (l.stime : ℤ)]) ++ rest) := by
    rw [List.dropWhile_append_of_pos hcomm]
    rfl
  have hrow : scan (numberFields processTimeFields)
      (printFields (l.skipped ++ [(l.utime : ℤ), (l.stime : ℤ)]) ++ rest) =
        [Conversion.signed.value l.utime, Conversion.signed.value l.stime] :=
    scan_numberFields hends rfl
  have htime := l.time_lt
  rw [scan_bytesWith, hname]
  simp only [scan, Directive.run, skipWhite_cons_of_isSpace (show isSpace 32 = true by decide),
    skipWhite_cons_of_not l.state_plain.1, List.nil_append, hrow]
  rw [Conversion.value_signed (by omega) (by omega), Conversion.value_signed (by omega) (by omega)]

/-- Where `%*s` stops in a name with white space: at the first such byte, with less than the name
before the parenthesis.
Source: `process_cpu_usage.c`, `get_process_time`
Kind: L -/
theorem exists_white (h : l.WhiteName) (rest : List UInt8) :
    ∃ w name, isSpace w = true ∧ name.length ≤ 14 ∧
      (l.comm ++ l.tail rest).dropWhile (fun b => !isSpace b) = w :: (name ++ l.tail rest) := by
  obtain ⟨b, hb, hspace⟩ := h
  have hne : l.comm.dropWhile (fun b => !isSpace b) ≠ [] := by
    intro hnil
    have hall := List.dropWhile_eq_nil_iff.mp hnil b hb
    rw [hspace] at hall
    cases hall
  have hlen : (l.comm.dropWhile fun b => !isSpace b).length ≤ 15 :=
    (List.dropWhile_suffix _).length_le.trans l.comm_length
  have hhead := List.head_dropWhile_not (fun b => !isSpace b) hne
  rw [List.dropWhile_append, if_neg (by simpa using hne)]
  obtain ⟨w, name, hw⟩ := List.exists_cons_of_ne_nil hne
  simp only [hw, List.length_cons, List.head_cons, Bool.not_eq_false'] at hlen hhead ⊢
  exact ⟨w, name, hhead, by omega, rfl⟩

/-- **White space in the name stops the scan** before both times are stored: the numbers would
have to stand in the rest of the name.
Source: `process_cpu_usage.c`, `get_process_time`
Kind: L -/
theorem scan_of_whiteName (h : l.WhiteName) (rest : List UInt8) :
    (scan (parseFormat processTimeFormat.toList) (l.bytesWith rest)).length ≤ 2 := by
  obtain ⟨w, name, hwhite, hlen, hname⟩ := l.exists_white h rest
  rw [scan_bytesWith, hname, List.length_cons]
  apply Nat.succ_le_succ
  rw [scan]
  simp only [Directive.run, skipWhite_cons_of_isSpace hwhite, List.nil_append]
  -- `%*c` takes the next byte of the name that is no white space, or else the parenthesis
  rw [skipWhite, List.dropWhile_append]
  cases hrest : name.dropWhile isSpace with
  | nil =>
      have hstopped := scan_numberFields_cons (.unsigned, false)
        (List.replicate 9 (.unsigned, false) ++ [(.signed, true), (.signed, true)])
        (32 :: l.state :: (printFields (l.skipped ++ [(l.utime : ℤ), (l.stime : ℤ)]) ++ rest))
      rw [l.scanInt_state] at hstopped
      exact (congrArg List.length hstopped).trans_le (Nat.zero_le 1)
  | cons c before =>
      have hbefore : before.length ≤ 13 := by
        have hle := (List.dropWhile_suffix (l := name) isSpace).length_le
        rw [hrest, List.length_cons] at hle
        omega
      have hstop : ¬TakenByNumber 41 := by
        unfold TakenByNumber
        decide
      have hfew : before.length ≤ 2 * ((List.replicate 9 (Conversion.unsigned, false) ++
          [(Conversion.signed, true)]).length + 1) := by
        simp
        omega
      exact length_scan_numberFields_le hstop (.signed, true) (.unsigned, false) _ hfew

end StatLine

/-! ## The times -/

/-- A sum of counters that is a `long long` does not overflow on the way.
Source: `process_cpu_usage.c`, `get_total_time`, `get_process_time`
Kind: L -/
theorem foldlM_addLongLong {numbers : List ℕ} {a : ℕ} (h : a + numbers.sum < 2 ^ 63) :
    (numbers.map Int.ofNat).foldlM addLongLong (a : ℤ) = some ((a + numbers.sum : ℕ) : ℤ) := by
  induction numbers generalizing a with
  | nil => rfl
  | cons n numbers ih =>
      rw [List.sum_cons, ← Nat.add_assoc] at h ⊢
      have hadd : addLongLong a (Int.ofNat n) = some ((a + n : ℕ) : ℤ) := by
        rw [addLongLong, if_pos ⟨by rw [Int.ofNat_eq_natCast]; omega,
          by rw [Int.ofNat_eq_natCast]; omega⟩]
        rfl
      rw [List.map_cons, List.foldlM_cons, hadd]
      exact ih h

/-- **The total time** is the sum of the first eight counters.
Source: `process_cpu_usage.c`, `get_total_time`
Kind: P -/
theorem getTotalTime_eq (l : CpuLine) {fs : ProcFs} (h : fs totalTimePath = .content l.bytes) :
    getTotalTime fs = some (((l.counters.take 8).sum : ℕ) : ℤ) := by
  obtain ⟨text, rest, hread, hbytes, hends⟩ := l.readLine_eq
  have hscan : sscanf text totalTimeFormat = (l.counters.take 8).map Int.ofNat := by
    rw [sscanf, hbytes]
    exact scan_cpuLine l.length_first l.first_lt hends
  have hsum : (l.counters.take 8).sum < 2 ^ 63 := by
    have hle := List.sum_le_card_nsmul _ (10 ^ 14) fun c hc => (l.first_lt c hc).le
    rw [l.length_first] at hle
    norm_num at hle ⊢
    omega
  simp only [getTotalTime, h, hread, hscan]
  match l.counters.take 8, l.length_first, hsum with
  | user :: nice :: system :: idle :: iowait :: irq :: softirq :: steal :: [], _, hsum =>
      rw [List.sum_cons] at hsum ⊢
      have hfold := foldlM_addLongLong hsum
      simp only [List.map_cons, List.map_nil, Int.ofNat_eq_natCast] at hfold ⊢
      exact hfold

section process

variable (l : StatLine) {fs : ProcFs} {pid : BitVec 32}
  (h : fs (processTimePath pid) = .content l.bytes)

include h

/-- **The time of a process** whose name has no white space.
Source: `process_cpu_usage.c`, `get_process_time`
Kind: P -/
theorem getProcessTime_of_not_whiteName (hname : ¬l.WhiteName) :
    getProcessTime fs pid = some (l.utime + l.stime : ℤ) := by
  obtain ⟨text, rest, hread, hbytes, hends⟩ := l.readLine_eq
  have hscan : sscanf text processTimeFormat =
      [Conversion.unsigned.value l.pid, (l.utime : ℤ), (l.stime : ℤ)] := by
    rw [sscanf, hbytes]
    exact l.scan_of_not_whiteName hname hends
  have htime := l.time_lt
  simp only [getProcessTime, h, hread, hscan]
  rw [addLongLong, if_pos ⟨by omega, by omega⟩]

/-- With white space in the name, the line is not understood.
Source: `process_cpu_usage.c`, `get_process_time`
Kind: P -/
theorem getProcessTime_of_whiteName (hname : l.WhiteName) :
    getProcessTime fs pid = some (-1) := by
  obtain ⟨text, rest, hread, hbytes, -⟩ := l.readLine_eq
  have hscan : (sscanf text processTimeFormat).length ≤ 2 := by
    rw [sscanf, hbytes]
    exact l.scan_of_whiteName hname rest
  simp only [getProcessTime, h, hread]
  match sscanf text processTimeFormat, hscan with
  | [], _ => rfl
  | [_], _ => rfl
  | [_, _], _ => rfl

/-- A process that could not be read at the start is reported as not found.
Source: `process_cpu_usage.c`, `get_process_cpu_usage`
Kind: L -/
theorem responsePid_of_whiteName (hname : l.WhiteName) {readings : UsageReadings}
    (hstart : readings.startProc = fs) {env : HandlerEnv}
    (husage : getProcessCpuUsage readings pid = some (env.usage pid)) :
    responsePid env pid = responseNotFound := by
  obtain ⟨startTotal, -, husage⟩ := Option.bind_eq_some_iff.mp husage
  rw [hstart, getProcessTime_of_whiteName l h hname] at husage
  have hnegative : env.usage pid = -1 := by
    simpa using husage.symm
  rw [responsePid, hnegative, if_pos (by norm_num)]

/-- **The time of a process is read exactly when its name has no white space**; otherwise the
process, though it lives, is answered with `"not found"`.
Source: `process_cpu_usage.c`, `get_process_time`, `get_process_cpu_usage`
Kind: P -/
theorem process_time_iff :
    (getProcessTime fs pid = some (l.utime + l.stime : ℤ) ↔ ¬l.WhiteName) ∧
      (l.WhiteName → getProcessTime fs pid = some (-1) ∧
        ∀ (readings : UsageReadings) (env : HandlerEnv), readings.startProc = fs →
          getProcessCpuUsage readings pid = some (env.usage pid) →
            responsePid env pid = responseNotFound) := by
  refine ⟨⟨?_, getProcessTime_of_not_whiteName l h⟩, ?_⟩
  · intro htime hname
    rw [getProcessTime_of_whiteName l h hname] at htime
    have hneg := Option.some.inj htime
    omega
  · intro hname
    refine ⟨getProcessTime_of_whiteName l h hname, ?_⟩
    intro readings env hstart husage
    exact responsePid_of_whiteName l h hname hstart husage

end process

/-- A line with the given name.
Source: none: infrastructure
Kind: D -/
def statLineNamed (comm : List UInt8) (hlen : comm.length ≤ 15)
    (hbytes : ∀ b ∈ comm, b ≠ 0 ∧ b ≠ 10) : StatLine where
  pid := 7
  pid_lt := by norm_num
  comm := comm
  comm_length := hlen
  comm_bytes := hbytes
  state := 83
  state_letter := by decide
  ppid := 1
  pgrp := 7
  session := 7
  ttyNr := 0
  tpgid := -1
  flags := 0
  minflt := 0
  cminflt := 0
  majflt := 0
  cmajflt := 0
  utime := 30
  stime := 12
  time_lt := by norm_num
  rest := [10]
  rest_ends := by
    intro b hb
    cases hb
    decide

/-- The process `init`.
Source: none: infrastructure
Kind: D -/
def initLine : StatLine := statLineNamed (ascii "init") (by decide) (by decide +kernel)

/-- The process `a b`.
Source: none: infrastructure
Kind: D -/
def blankLine : StatLine := statLineNamed (ascii "a b") (by decide) (by decide +kernel)

/-- The times of this line are added up.
Source: `process_cpu_usage.c`, `get_process_time`
Kind: C -/
theorem process_time_init :
    getProcessTime (fun _ => .content initLine.bytes) 7 = some (30 + 12) :=
  (process_time_iff initLine rfl).1.mpr (by decide)

/-- The line `7 (a b) S 1 7 7 0 -1 0 0 0 0 0 30 12`: `%*s` takes `(a`, `%*c` takes `b`, and the
parenthesis is no number.
Source: `process_cpu_usage.c`, `get_process_time`
Kind: C -/
theorem blank_name_not_read :
    blankLine.bytes = ascii "7 (a b) S 1 7 7 0 -1 0 0 0 0 0 30 12\n" ∧
      getProcessTime (fun _ => .content blankLine.bytes) 7 = some (-1) ∧
      getProcessTime (fun _ => .content blankLine.bytes) 7 ≠
        some (blankLine.utime + blankLine.stime : ℤ) := by
  decide +kernel

/-- **The buffers never cut a counter**: the total time is the exact sum of the first eight
counters, and the time of a process whose name has no white space the exact sum of its two times.
Source: `process_cpu_usage.c`, `get_total_time`, `get_process_time`
Kind: P -/
theorem cpu_times_exact :
    (∀ (l : CpuLine) (fs : ProcFs), fs totalTimePath = .content l.bytes →
      getTotalTime fs = some (((l.counters.take 8).sum : ℕ) : ℤ)) ∧
    (∀ (l : StatLine) (fs : ProcFs) (pid : BitVec 32),
      fs (processTimePath pid) = .content l.bytes → ¬l.WhiteName →
        getProcessTime fs pid = some (l.utime + l.stime : ℤ)) :=
  ⟨fun l _ h => getTotalTime_eq l h, fun l _ _ h => getProcessTime_of_not_whiteName l h⟩

/-- Eight counters of the greatest width, and two more.
Source: none: infrastructure
Kind: D -/
def wideCpuLine : CpuLine where
  counters := List.replicate 10 (10 ^ 14 - 1)
  eight_le := by simp
  counters_lt := by
    intro c hc
    rw [List.eq_of_mem_replicate hc]
    norm_num
  rest := [10]
  rest_ends := by
    intro b hb
    cases hb
    decide

/-- Both times are exact for the widest counters there are.
Source: `process_cpu_usage.c`, `get_total_time`, `get_process_time`
Kind: C -/
theorem cpu_times_exact_wide :
    getTotalTime (fun _ => .content wideCpuLine.bytes) = some (8 * (10 ^ 14 - 1)) ∧
      getProcessTime (fun _ => .content initLine.bytes) 7 = some (30 + 12) :=
  ⟨cpu_times_exact.1 wideCpuLine _ rfl, cpu_times_exact.2 initLine _ 7 rfl (by decide)⟩

end CpuMonitor.Server
