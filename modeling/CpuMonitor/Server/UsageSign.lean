import CpuMonitor.Server.ProcessCpuUsage

/-!
# When is a process "not found"?

`server/process_cpu_usage.c`, `get_process_cpu_usage`: four counters are read, each reading can
fail, and the usage is a quotient of two differences. The error is told by the sign of the same
number: `worker_on_message` answers `"not found"` for a negative usage.

* **The readings** `CounterReads`: each is `none` (failed) or a non-negative `long long`.
* **The code's model** `usageOfReads`, the function without its files (`usageWith`, for any
  arithmetic, and the exact one); on the readings of some files it is `getProcessCpuUsage`
  (`getProcessCpuUsage_eq`).
* `usageOfReads_neg_iff` — the four ways to a negative usage that come from a failed reading, and
  the fifth: the counter of the process has gone back while the total has advanced, as after the
  pid was reused.
* `not_found_iff` — so `"not found"` means what it says exactly outside of the fifth.
-/

namespace CpuMonitor.Server

open CpuMonitor.Lib

/-! ## The function on four readings -/

/-- A non-negative `long long`.
Source: none: infrastructure
Kind: D -/
abbrev Counter : Type := Fin (2 ^ 63)

/-- What the four readings return; `none` is a failed one.
Source: `process_cpu_usage.c`, `get_process_cpu_usage`
Kind: D -/
structure CounterReads where
  startTotal : Option Counter
  startProc : Option Counter
  endTotal : Option Counter
  endProc : Option Counter

/-- The number for a reading: an error is `-1`.
Source: `process_cpu_usage.c`, `get_process_cpu_usage`
Kind: D -/
def readValue : Option Counter → ℤ
  | none => -1
  | some n => (n.val : ℤ)

/-- The function on four readings, for any arithmetic.
Source: `process_cpu_usage.c`, `get_process_cpu_usage`
Kind: D -/
def usageWith (percent : ℤ → ℤ → Option ℚ) (reads : CounterReads) : Option ℚ :=
  cpuUsageWith percent (some (readValue reads.startTotal)) (some (readValue reads.startProc))
    (some (readValue reads.endTotal)) (some (readValue reads.endProc))

/-- The usage that four readings give.
Source: `process_cpu_usage.c`, `get_process_cpu_usage`
Kind: D
Fidelity: the exact quotient; the code's is the nearest `double` -/
def usageOfReads (reads : CounterReads) : Option ℚ := usageWith exactPercent reads

/-- The files give these readings.
Source: `process_cpu_usage.c`, `get_total_time`, `get_process_time`
Kind: D -/
structure UsageReadings.Yield (readings : UsageReadings) (pid : BitVec 32) (reads : CounterReads) :
    Prop where
  startTotal : getTotalTime readings.startTotal = some (readValue reads.startTotal)
  startProc : getProcessTime readings.startProc pid = some (readValue reads.startProc)
  endTotal : getTotalTime readings.endTotal = some (readValue reads.endTotal)
  endProc : getProcessTime readings.endProc pid = some (readValue reads.endProc)

/-- **On the readings of some files it is the function on the files.**
Source: `process_cpu_usage.c`, `get_process_cpu_usage`
Kind: P -/
theorem getProcessCpuUsage_eq {readings : UsageReadings} {pid : BitVec 32} {reads : CounterReads}
    (h : readings.Yield pid reads) : getProcessCpuUsage readings pid = usageOfReads reads := by
  unfold getProcessCpuUsage usageOfReads usageWith
  rw [h.startTotal, h.startProc, h.endTotal, h.endProc]

/-! ## The sign of the usage -/

namespace CounterReads

variable (reads : CounterReads)

/-- One of the readings failed.
Source: `process_cpu_usage.c`, `get_process_cpu_usage`
Kind: D -/
def Failed : Prop :=
  reads.startTotal = none ∨ reads.startProc = none ∨ reads.endTotal = none ∨ reads.endProc = none

/-- All readings succeeded, the total time has advanced and the time of the process has gone
back.
Source: `process_cpu_usage.c`, `get_process_cpu_usage`
Kind: D -/
def WentBack : Prop :=
  ∃ startTotal startProc endTotal endProc,
    reads = ⟨some startTotal, some startProc, some endTotal, some endProc⟩ ∧
      startTotal < endTotal ∧ endProc < startProc

/-- What it means for four counters.
Source: none: infrastructure
Kind: L -/
theorem wentBack_mk {startTotal startProc endTotal endProc : Counter} :
    WentBack ⟨some startTotal, some startProc, some endTotal, some endProc⟩ ↔
      startTotal < endTotal ∧ endProc < startProc := by
  simp [WentBack]

/-- Readings that have not failed are four counters.
Source: none: infrastructure
Kind: L -/
theorem exists_of_not_failed (h : ¬reads.Failed) :
    ∃ startTotal startProc endTotal endProc,
      reads = ⟨some startTotal, some startProc, some endTotal, some endProc⟩ := by
  obtain ⟨startTotal, startProc, endTotal, endProc⟩ := reads
  simp only [Failed, not_or, ← ne_eq, Option.ne_none_iff_exists'] at h
  obtain ⟨⟨a, rfl⟩, ⟨b, rfl⟩, ⟨c, rfl⟩, ⟨d, rfl⟩⟩ := h
  exact ⟨a, b, c, d, rfl⟩

/-- Readings that went back have not failed.
Source: none: infrastructure
Kind: L -/
theorem not_failed_of_wentBack {reads : CounterReads} (h : reads.WentBack) : ¬reads.Failed := by
  obtain ⟨a, b, c, d, rfl, -⟩ := h
  simp [Failed]

end CounterReads

/-- A reading is -1 exactly if it has failed.
Source: `process_cpu_usage.c`, `get_process_cpu_usage`
Kind: L -/
theorem readValue_eq_neg_one_iff (r : Option Counter) : readValue r = -1 ↔ r = none := by
  cases r with
  | none => simp [readValue]
  | some n =>
      have hnonneg : (0 : ℤ) ≤ n.val := Int.natCast_nonneg _
      constructor
      · intro hneg
        rw [readValue] at hneg
        omega
      · intro hnone
        cases hnone

/-- Differences of counters do not overflow.
Source: `process_cpu_usage.c`, `get_total_time`, `get_process_time`
Kind: L -/
theorem addLongLong_sub (a b : Counter) :
    addLongLong (a.val : ℤ) (-(b.val : ℤ)) = some ((a.val : ℤ) - b.val) := by
  have ha := a.isLt
  have hb := b.isLt
  rw [addLongLong, if_pos (by omega)]
  congr 1

/-- A failed reading gives `-1`, whatever the arithmetic.
Source: `process_cpu_usage.c`, `get_process_cpu_usage`
Kind: L -/
theorem usageWith_of_failed (percent : ℤ → ℤ → Option ℚ) {reads : CounterReads}
    (h : reads.Failed) : usageWith percent reads = some (-1) := by
  unfold usageWith cpuUsageWith
  simp only [Option.bind_eq_bind, Option.bind_some, readValue_eq_neg_one_iff]
  by_cases hstart : reads.startTotal = none ∨ reads.startProc = none
  · rw [if_pos hstart]
  · have hend : reads.endTotal = none ∨ reads.endProc = none := by
      rcases h with h | h | h | h
      · exact absurd (.inl h) hstart
      · exact absurd (.inr h) hstart
      · exact .inl h
      · exact .inr h
    rw [if_neg hstart, if_pos hend]

/-- Four counters give zero, or the percentage of their differences, of which the second is
positive.
Source: `process_cpu_usage.c`, `get_process_cpu_usage`
Kind: L -/
theorem usageWith_of_some (percent : ℤ → ℤ → Option ℚ)
    (startTotal startProc endTotal endProc : Counter) :
    usageWith percent ⟨some startTotal, some startProc, some endTotal, some endProc⟩ =
      if endTotal ≤ startTotal then some 0
      else percent (endProc.val - startProc.val) (endTotal.val - startTotal.val) := by
  have hsome : ∀ n : Counter, ¬readValue (some n) = -1 := by
    intro n hneg
    exact Option.some_ne_none n ((readValue_eq_neg_one_iff _).mp hneg)
  have hdiff : (endTotal.val : ℤ) - startTotal.val ≤ 0 ↔ endTotal ≤ startTotal := by
    rw [Fin.le_def]
    omega
  unfold usageWith cpuUsageWith
  simp only [Option.bind_eq_bind, Option.bind_some]
  rw [if_neg (not_or.mpr ⟨hsome _, hsome _⟩), if_neg (not_or.mpr ⟨hsome _, hsome _⟩)]
  simp only [readValue, addLongLong_sub, Option.bind_some, hdiff]

/-- The exact usage from four counters.
Source: `process_cpu_usage.c`, `get_process_cpu_usage`
Kind: L -/
theorem usageOfReads_of_some (startTotal startProc endTotal endProc : Counter) :
    usageOfReads ⟨some startTotal, some startProc, some endTotal, some endProc⟩ =
      some (if endTotal ≤ startTotal then 0
        else 100 * ((endProc.val : ℚ) - startProc.val) / (endTotal.val - startTotal.val)) := by
  rw [usageOfReads, usageWith_of_some]
  split_ifs with hle
  · rfl
  · have hlt : startTotal.val < endTotal.val := Fin.lt_def.mp (not_le.mp hle)
    have hpos : (0 : ℚ) < endTotal.val - startTotal.val := sub_pos.mpr (by exact_mod_cast hlt)
    rw [exactPercent, quotient]
    push_cast
    rw [if_neg hpos.ne']

/-- **When the usage is negative.** The function has an outcome for all readings, so it never
divides by zero.
Source: `process_cpu_usage.c`, `get_process_cpu_usage`
Kind: P -/
theorem usageOfReads_neg_iff (reads : CounterReads) :
    ∃ u, usageOfReads reads = some u ∧ (u < 0 ↔ reads.Failed ∨ reads.WentBack) := by
  by_cases hfailed : reads.Failed
  · refine ⟨-1, usageWith_of_failed exactPercent hfailed, ?_⟩
    exact ⟨fun _ => .inl hfailed, fun _ => by norm_num⟩
  obtain ⟨startTotal, startProc, endTotal, endProc, rfl⟩ := reads.exists_of_not_failed hfailed
  refine ⟨_, usageOfReads_of_some _ _ _ _, ?_⟩
  rw [CounterReads.wentBack_mk, or_iff_right hfailed]
  by_cases hle : endTotal ≤ startTotal
  · rw [if_pos hle]
    constructor
    · intro hneg
      exact absurd hneg (lt_irrefl 0)
    · rintro ⟨hlt, -⟩
      exact absurd hlt (not_lt.mpr hle)
  · have hlt := not_le.mp hle
    have hpos : (0 : ℚ) < endTotal.val - startTotal.val :=
      sub_pos.mpr (by exact_mod_cast Fin.lt_def.mp hlt)
    rw [if_neg hle, div_lt_iff₀ hpos, zero_mul]
    constructor
    · intro hneg
      have hproc : (endProc.val : ℚ) < startProc.val := by linarith
      exact ⟨hlt, Fin.lt_def.mpr (by exact_mod_cast hproc)⟩
    · rintro ⟨-, hproc⟩
      have hproc : (endProc.val : ℚ) < startProc.val := by exact_mod_cast Fin.lt_def.mp hproc
      linarith

/-! ## The answer -/

/-- A printed usage is not the text `not found`.
Source: `process_cpu_usage.c`, `get_process_cpu_usage`
Kind: L -/
theorem responseUsage_ne_notFound (env : HandlerEnv) (pid : BitVec 32) :
    responseUsage env pid ≠ responseNotFound := by
  intro heq
  have hletter : (110 : UInt8) ∈ responseNotFound.1.bytes := by decide +kernel
  rw [← heq] at hletter
  have hnumeric := numeric_fixed6 (List.mem_of_mem_take hletter)
  exact absurd hnumeric.lt.2 (by decide)

/-- The answer is `not found` exactly for a negative usage.
Source: `process_cpu_usage.c`, `get_process_cpu_usage`
Kind: L -/
theorem responsePid_eq_notFound_iff (env : HandlerEnv) (pid : BitVec 32) :
    responsePid env pid = responseNotFound ↔ env.usage pid < 0 := by
  unfold responsePid
  split_ifs with hneg
  · exact ⟨fun _ => hneg, fun _ => rfl⟩
  · exact ⟨fun heq => absurd heq (responseUsage_ne_notFound env pid), fun h => absurd h hneg⟩

/-- **"Not found" is answered only for processes that could not be sampled, unless a counter has
gone back.** For every outcome of the four readings the function has a result, without a division by
zero; the worker answers `"not found"` exactly if it is negative; and that is exactly the case of a
failed reading if and only if it is not the case that all four succeeded, the total time advanced
and the time of the process went back.
Source: `process_cpu_usage.c`, `get_process_cpu_usage`; `server.c`, `worker_on_message`
Kind: P -/
theorem not_found_iff (reads : CounterReads) :
    ∃ u, usageOfReads reads = some u ∧
      (∀ (readings : UsageReadings) (pid : BitVec 32), readings.Yield pid reads →
        getProcessCpuUsage readings pid = some u) ∧
      (∀ (env : HandlerEnv) (pid : BitVec 32), env.usage pid = u →
        (responsePid env pid = responseNotFound ↔ u < 0)) ∧
      ((u < 0 ↔ reads.Failed) ↔ ¬reads.WentBack) := by
  obtain ⟨u, husage, hneg⟩ := usageOfReads_neg_iff reads
  refine ⟨u, husage, ?_, ?_, ?_⟩
  · intro readings pid hreads
    rw [getProcessCpuUsage_eq hreads, husage]
  · rintro env pid rfl
    exact responsePid_eq_notFound_iff env pid
  · rw [hneg]
    constructor
    · intro honly hback
      exact CounterReads.not_failed_of_wentBack hback (honly.mp (.inr hback))
    · intro hback
      exact or_iff_left hback

/-- The process `init` after its pid was given to a younger process.
Source: none: infrastructure
Kind: D -/
def reusedLine : StatLine :=
  { initLine with utime := 1, stime := 1, time_lt := by norm_num }

/-- A newline ends a number.
Source: none: infrastructure
Kind: L -/
theorem endsNumber_newline : EndsNumber [10] := by
  intro b hb
  cases hb
  decide

/-- The counters of an idle machine have at most fourteen digits.
Source: none: infrastructure
Kind: L -/
theorem idle_counters_lt {idle : ℕ} (h : idle < 10 ^ 14) :
    ∀ c ∈ [0, 0, 0, idle, 0, 0, 0, 0], c < 10 ^ 14 := by
  intro c hc
  simp only [List.mem_cons, List.not_mem_nil, or_false] at hc
  rcases hc with rfl | rfl | rfl | rfl | rfl | rfl | rfl | rfl <;> first | exact h | norm_num

/-- A first line of `/proc/stat` with this idle time.
Source: none: infrastructure
Kind: D -/
def idleLine (idle : ℕ) (h : idle < 10 ^ 14) : CpuLine where
  counters := [0, 0, 0, idle, 0, 0, 0, 0]
  eight_le := le_rfl
  counters_lt := idle_counters_lt h
  rest := [10]
  rest_ends := endsNumber_newline

/-- A pid that is reused between the two samples: 42 ticks first, 2 ticks then, while the system
advances by 100.
Source: none: infrastructure
Kind: D -/
def reusedReadings : UsageReadings where
  startTotal := fun _ => .content (idleLine 1000 (by norm_num)).bytes
  startProc := fun _ => .content initLine.bytes
  endTotal := fun _ => .content (idleLine 1100 (by norm_num)).bytes
  endProc := fun _ => .content reusedLine.bytes

/-- These files yield the readings.
Source: none: infrastructure
Kind: L -/
theorem reusedReadings_yield :
    reusedReadings.Yield 7 ⟨some 1000, some 42, some 1100, some 2⟩ where
  startTotal := getTotalTime_eq (idleLine 1000 (by norm_num)) rfl
  startProc := getProcessTime_of_not_whiteName initLine rfl (by decide)
  endTotal := getTotalTime_eq (idleLine 1100 (by norm_num)) rfl
  endProc := getProcessTime_of_not_whiteName reusedLine rfl (by decide)

/-- All four readings succeed, and the process is not found.
Source: `process_cpu_usage.c`, `get_process_cpu_usage`
Kind: C -/
theorem reused_pid_not_found :
    getTotalTime reusedReadings.startTotal = some 1000 ∧
      getProcessTime reusedReadings.startProc 7 = some 42 ∧
      getTotalTime reusedReadings.endTotal = some 1100 ∧
      getProcessTime reusedReadings.endProc 7 = some 2 ∧
      getProcessCpuUsage reusedReadings 7 = some (-40) ∧
      ∀ env : HandlerEnv, env.usage 7 = -40 → responsePid env 7 = responseNotFound := by
  obtain ⟨hstartTotal, hstartProc, hendTotal, hendProc⟩ := reusedReadings_yield
  refine ⟨hstartTotal, hstartProc, hendTotal, hendProc, ?_, ?_⟩
  · rw [getProcessCpuUsage_eq reusedReadings_yield]
    decide +kernel
  · intro env husage
    rw [responsePid_eq_notFound_iff, husage]
    norm_num

end CpuMonitor.Server
