import CpuMonitor.Lib.Decimal
import CpuMonitor.Lib.Rounding
import CpuMonitor.Server.JournalLines
import CpuMonitor.Server.UsageSign

/-!
# How accurate is a reported usage?

`server/process_cpu_usage.c` computes `(100.0 * proc_diff) / total_diff` in `double`s, and
`server/server.c` prints it with `%f` into a buffer of 256 bytes, once for the reply and once for
the journal.

* **The computation** `usageInDoubles`: the function on four readings (`usageWith`) with a rounding
  after each of its four operations (two conversions, a product and a quotient); without roundings
  it is `usageOfReads`.
* **Its error** `close_usage`: four roundings. The sign is the exact one (`usage_cases`), so the
  answer `not found` does not depend on them.
* **The text** `Measured.cases`, `response_of_measured`: the number fits in the buffer, and read
  back it is the exact usage up to half a millionth and the four roundings.
-/

namespace CpuMonitor.Server

open CpuMonitor.Lib CpuMonitor.Network

/-! ## The computation -/

/-- `(100.0 * proc_diff) / total_diff`.
Source: `process_cpu_usage.c`, `get_process_cpu_usage`
Kind: D -/
def usagePercent (R : Rounding) (procDiff totalDiff : ℤ) : Option ℚ :=
  (quotient (R.rnd (100 * R.rnd procDiff)) (R.rnd totalDiff)).map R.rnd

/-- The usage that four readings give in `double`s.
Source: `process_cpu_usage.c`, `get_process_cpu_usage`
Kind: D
Fidelity: exact for a rounding function of `double`s that meets no overflow or underflow; all
numbers that occur are between `2 ^ (-63)` and `2 ^ 71` -/
def usageInDoubles (R : Rounding) (reads : CounterReads) : Option ℚ :=
  usageWith (usagePercent R) reads

section computation

variable {R : Rounding} {reads : CounterReads}

/-- A rounding keeps the sign.
Source: none: infrastructure
Kind: L -/
theorem rnd_neg {x : ℚ} (hx : x < 0) : R.rnd x < 0 := by
  have herror := (abs_le.mp (R.error x)).2
  rw [abs_of_neg hx] at herror
  nlinarith [R.u_lt_one]

/-- Rounding keeps a number positive.
Source: none: infrastructure
Kind: L -/
theorem rnd_pos {x : ℚ} (hx : 0 < x) : 0 < R.rnd x := (Rounding.Close.rnd hx.le).pos hx

/-- The usage in `double`s from four counters.
Source: `process_cpu_usage.c`, `get_process_cpu_usage`
Kind: L -/
theorem usageInDoubles_of_some (startTotal startProc endTotal endProc : Counter) :
    usageInDoubles R ⟨some startTotal, some startProc, some endTotal, some endProc⟩ =
      some (if endTotal ≤ startTotal then 0
        else R.rnd (R.rnd (100 * R.rnd (endProc.val - startProc.val)) /
          R.rnd (endTotal.val - startTotal.val))) := by
  rw [usageInDoubles, usageWith_of_some]
  split_ifs with hle
  · rfl
  · have hlt : startTotal.val < endTotal.val := Fin.lt_def.mp (not_le.mp hle)
    have hpos : (0 : ℚ) < endTotal.val - startTotal.val := sub_pos.mpr (by exact_mod_cast hlt)
    rw [usagePercent, quotient]
    push_cast
    rw [if_neg (rnd_pos hpos).ne']
    rfl

/-- **Four roundings.**
Source: `process_cpu_usage.c`, `get_process_cpu_usage`
Kind: P -/
theorem close_usage {p t : ℚ} (hp : 0 ≤ p) (ht : 0 < t) :
    R.Close 4 (100 * p / t) (R.rnd (R.rnd (100 * R.rnd p) / R.rnd t)) := by
  have hproc : R.Close 1 p (R.rnd p) := .rnd hp
  have hproc' := hproc.nonneg hp
  have hproduct : R.Close 2 (100 * p) (R.rnd (100 * R.rnd p)) :=
    (hproc.mul_left (by norm_num)).trans (.rnd (by positivity))
  have htotal : R.Close 1 t (R.rnd t) := .rnd ht.le
  have hquotient : R.Close 3 (100 * p / t) (R.rnd (100 * R.rnd p) / R.rnd t) :=
    hproduct.div htotal ht (rnd_pos ht) (by positivity) (hproduct.nonneg (by positivity))
  exact hquotient.trans (.rnd (hquotient.nonneg (by positivity)))

/-- A difference of counters.
Source: `process_cpu_usage.c`, `get_process_cpu_usage`
Kind: L -/
theorem counter_sub_lt (a b : Counter) : (a.val : ℚ) - b.val < 10 ^ 19 := by
  have ha : (a.val : ℚ) < 2 ^ 63 := by exact_mod_cast a.isLt
  have hb : (0 : ℚ) ≤ b.val := Nat.cast_nonneg _
  have hpow : (2 : ℚ) ^ 63 ≤ 10 ^ 19 := by norm_num
  linarith

/-- **The two functions agree up to four roundings**, and in the sign. The usage is below `10 ^ 21`.
Source: `process_cpu_usage.c`, `get_process_cpu_usage`
Kind: P -/
theorem usage_cases (R : Rounding) (reads : CounterReads) :
    (reads.Failed ∨ reads.WentBack) ∧ (∃ u, usageInDoubles R reads = some u ∧ u < 0) ∨
    (¬reads.Failed ∧ ¬reads.WentBack) ∧ ∃ exact u, usageOfReads reads = some exact ∧
      usageInDoubles R reads = some u ∧ 0 ≤ exact ∧ exact ≤ 10 ^ 21 ∧ R.Close 4 exact u := by
  by_cases hfailed : reads.Failed
  · exact .inl ⟨.inl hfailed, -1, usageWith_of_failed _ hfailed, by norm_num⟩
  obtain ⟨startTotal, startProc, endTotal, endProc, rfl⟩ := reads.exists_of_not_failed hfailed
  rw [CounterReads.wentBack_mk, usageInDoubles_of_some, usageOfReads_of_some]
  by_cases hle : endTotal ≤ startTotal
  · have hzero : R.Close 4 0 0 := ⟨(zero_mul _).le, (zero_mul _).le⟩
    refine .inr ⟨⟨hfailed, fun h => absurd h.1 (not_lt.mpr hle)⟩, 0, 0, ?_, ?_, le_rfl, ?_, hzero⟩
    · rw [if_pos hle]
    · rw [if_pos hle]
    · positivity
  rw [if_neg hle, if_neg hle]
  have htotal : (1 : ℚ) ≤ endTotal.val - startTotal.val := by
    have hlt := Fin.lt_def.mp (not_le.mp hle)
    have hle' : (startTotal.val : ℚ) + 1 ≤ endTotal.val := by exact_mod_cast hlt
    linarith
  have hpos : (0 : ℚ) < endTotal.val - startTotal.val := by linarith
  by_cases hback : endProc < startProc
  · have hproc : (endProc.val : ℚ) - startProc.val < 0 :=
      sub_neg.mpr (by exact_mod_cast Fin.lt_def.mp hback)
    refine .inl ⟨.inr ⟨not_le.mp hle, hback⟩, _, rfl, rnd_neg ?_⟩
    refine div_neg_of_neg_of_pos (rnd_neg ?_) (rnd_pos hpos)
    have := rnd_neg (R := R) hproc
    linarith
  · have hproc : (0 : ℚ) ≤ endProc.val - startProc.val :=
      sub_nonneg.mpr (by exact_mod_cast Fin.le_def.mp (not_lt.mp hback))
    refine .inr ⟨⟨hfailed, fun h => hback h.2⟩, _, _, rfl, rfl, by positivity, ?_,
      close_usage hproc hpos⟩
    rw [div_le_iff₀ hpos]
    have := counter_sub_lt endProc startProc
    nlinarith

end computation

/-! ## The text -/

/-- The usage that the call finds for `pid` was computed from these readings.
Source: `process_cpu_usage.c`, `get_process_cpu_usage`
Kind: D -/
def Measured (R : Rounding) (env : HandlerEnv) (pid : BitVec 32) (reads : CounterReads) : Prop :=
  usageInDoubles R reads = some (env.usage pid)

/-- How far a printed usage may be from the exact one: half a unit of the last digit, and the
roundings of the computation.
Source: `process_cpu_usage.c`, `get_process_cpu_usage`
Kind: D -/
def usageError (exact : ℚ) : ℚ := 1 / (2 * 10 ^ 6) + exact / 2 ^ 50

/-- What a text tells about the readings: `not found` that one of them failed or the process's time
went back, a number the usage.
Source: `process_cpu_usage.c`, `get_process_cpu_usage`
Kind: D -/
def ReportsUsage (reads : CounterReads) (text : List UInt8) : Prop :=
  (reads.Failed ∨ reads.WentBack) ∧ text = responseNotFound.1.bytes ∨
  (¬reads.Failed ∧ ¬reads.WentBack) ∧ ∃ exact value, usageOfReads reads = some exact ∧
    readFixed text = some value ∧ |value - exact| ≤ usageError exact

section text

variable {R : Rounding} {env : HandlerEnv} {pid : BitVec 32} {reads : CounterReads}

/-- Four roundings of `double`s as one error.
Source: none: infrastructure
Kind: L -/
theorem abs_sub_le_of_close (hR : R.IsDouble) {x y : ℚ} (h : R.Close 4 x y) (hx : 0 ≤ x) :
    |y - x| ≤ x / 2 ^ 50 := by
  have hu : R.u ≤ 1 / 2 ^ 53 := hR
  have hsteps : 2 * (((4 : ℕ) : ℚ) * R.u) ≤ 1 / 2 ^ 50 := by
    push_cast
    linarith
  refine (h.error_le hx (hsteps.trans (by norm_num))).trans ?_
  rw [div_eq_mul_one_div]
  exact mul_le_mul_of_nonneg_left hsteps hx

/-- **A measured usage as a text**: it has at most 29 bytes, and read back it is the exact usage up
to `usageError`.
Source: none: infrastructure
Kind: P -/
theorem fixed6_of_close (hR : R.IsDouble) {exact u : ℚ} (hexact : 0 ≤ exact)
    (hlt : exact ≤ 10 ^ 21) (h : R.Close 4 exact u) :
    (fixed6 u).length ≤ 29 ∧
      ∃ value, readFixed (fixed6 u) = some value ∧ |value - exact| ≤ usageError exact := by
  have hu := h.nonneg hexact
  have herror := abs_sub_le_of_close hR h hexact
  constructor
  · have hupper := (abs_le.mp herror).2
    have hsmall : exact / 2 ^ 50 ≤ exact := div_le_self hexact (by norm_num)
    exact length_fixed6_le (w := 22) hu (by norm_num) (by linarith)
  · refine ⟨_, readFixed_fixed6 hu, ?_⟩
    calc |(millionths u : ℚ) / (10 ^ 6 : ℕ) - exact|
        = |((millionths u : ℚ) / (10 ^ 6 : ℕ) - u) + (u - exact)| := by rw [sub_add_sub_cancel]
      _ ≤ |(millionths u : ℚ) / (10 ^ 6 : ℕ) - u| + |u - exact| := abs_add_le _ _
      _ ≤ usageError exact := add_le_add (abs_millionths_sub_le hu) herror

/-- A measured usage is negative, or its text is a report.
Source: `process_cpu_usage.c`, `get_process_cpu_usage`
Kind: P -/
theorem Measured.cases (hR : R.IsDouble) (h : Measured R env pid reads) :
    (reads.Failed ∨ reads.WentBack) ∧ env.usage pid < 0 ∨
    (¬reads.Failed ∧ ¬reads.WentBack) ∧ 0 ≤ env.usage pid ∧
      (fixed6 (env.usage pid)).length ≤ 29 ∧ ∃ exact value, usageOfReads reads = some exact ∧
        readFixed (fixed6 (env.usage pid)) = some value ∧ |value - exact| ≤ usageError exact := by
  rcases usage_cases R reads with ⟨hbad, u, husage, hneg⟩ |
    ⟨hgood, exact, u, hexact, husage, hnonneg, hlt, hclose⟩
  · obtain rfl : u = env.usage pid := Option.some.inj (husage.symm.trans h)
    exact .inl ⟨hbad, hneg⟩
  · obtain rfl : u = env.usage pid := Option.some.inj (husage.symm.trans h)
    obtain ⟨hlength, value, hread, herror⟩ := fixed6_of_close hR hnonneg hlt hclose
    exact .inr ⟨hgood, hclose.nonneg hnonneg, hlength, exact, value, hexact, hread, herror⟩

/-- **The answer to a request reports the usage.**
Source: `process_cpu_usage.c`, `get_process_cpu_usage`; `server.c`, `worker_on_message`
Kind: P -/
theorem response_of_measured (hR : R.IsDouble) (h : Measured R env pid reads) :
    ReportsUsage reads (responsePid env pid).1.bytes := by
  rcases h.cases hR with ⟨hbad, hneg⟩ |
    ⟨hgood, hnonneg, hlength, exact, value, hexact, hread, herror⟩
  · refine .inl ⟨hbad, ?_⟩
    rw [responsePid, if_pos hneg]
  · have hbytes : (responsePid env pid).1.bytes = fixed6 (env.usage pid) := by
      rw [responsePid, if_neg (not_lt.mpr hnonneg)]
      exact List.take_of_length_le (hlength.trans (by decide))
    rw [← hbytes] at hread
    exact .inr ⟨hgood, exact, value, hexact, hread, herror⟩

end text

/-! ## Two equal samples -/

/-- No rounding at all.
Source: none: infrastructure
Kind: D -/
def exactly : Rounding := ⟨id, 0, le_rfl, one_pos, by simp⟩

/-- Exact arithmetic is one of the roundings.
Source: none: infrastructure
Kind: L -/
theorem exactly_isDouble : exactly.IsDouble := by
  show (0 : ℚ) ≤ 1 / 2 ^ 53
  positivity

/-- Nothing has moved between the two samples.
Source: none: infrastructure
Kind: D -/
def sameSamples : CounterReads := ⟨some 0, some 0, some 0, some 0⟩

/-- A usage of zero is measured by two equal samples.
Source: `process_cpu_usage.c`, `get_process_cpu_usage`
Kind: L -/
theorem measured_zero {env : HandlerEnv} {pid : BitVec 32} (h : env.usage pid = 0) :
    Measured exactly env pid sameSamples := by
  rw [Measured, sameSamples, usageInDoubles_of_some, h, if_pos le_rfl]

end CpuMonitor.Server
