import CpuMonitor.Server.JournalShared
import CpuMonitor.Server.UsageText

/-!
# Reading the journal back

Nothing in the repository reads the exported journal; it is meant for people and scripts
(`Readme.md`, "Journal Logging"). This file has a reader for it and says what it finds after the
workers have logged concurrently.

* **The reader** `readLog`: the text without the terminators, line by line; the time is what stands
  before the last colon of a line, since a time has colons of its own. Lines that are not of a
  request, such as the greeting, are skipped.
* **A record** `SampledRequest.readLine_line`: a line is never cut, and it reads back as the time,
  the pid and the usage of its request, up to `usageError`.
* **The processes** `serverRecords`: `main`, which writes the greeting, and the workers.
  `Shared.HandsOver` follows the records of every process through its calls of `journal_write`.
* `journal_reads_back` — at every moment of every run of undisturbed writers the reader finds
  exactly the stored records, each as its request and those of a worker in their order.
-/

namespace CpuMonitor.Server

open CpuMonitor.Lib CpuMonitor.Network

/-! ## The reader -/

/-- What a line says about a request.
Source: none: infrastructure
Kind: D -/
inductive Finding
  | invalid
  | notFound (pid : ℤ)
  | usage (pid : ℤ) (value : ℚ)
  deriving DecidableEq

/-- A line of the log that is of a request.
Source: none: infrastructure
Kind: D -/
structure LogEntry where
  time : List UInt8
  finding : Finding
  deriving DecidableEq

/-- The byte between the time and the rest of a line.
Source: none: infrastructure
Kind: D -/
def colon : UInt8 := 58

/-- The part of a line behind its last colon: ` invalid request`, ` PID not found` or
` PID %USAGE`.
Source: `server.c`, `worker_on_message`
Kind: D -/
def readFinding (text : List UInt8) : Option Finding :=
  match scanInt text with
  | none => if text = ascii " invalid request" then some .invalid else none
  | some (pid, rest) =>
      if rest = ascii " not found" then some (.notFound pid)
      else if rest.take 2 = ascii " %" then (readFixed (rest.drop 2)).map (.usage pid)
      else none

/-- A line, split at its last colon.
Source: `server.c`, `worker_on_message`
Kind: D -/
def readLine (line : List UInt8) : Option LogEntry :=
  match line.reverse.dropWhile (· != colon) with
  | [] => none
  | _ :: time =>
      (readFinding (line.reverse.takeWhile (· != colon)).reverse).map (⟨time.reverse, ·⟩)

example : readLine (ascii "2025-01-01 00:00:00: 7 %12.500000") =
    some ⟨ascii "2025-01-01 00:00:00", .usage 7 (25 / 2)⟩ := by decide +kernel

/-- A line is split at its last colon.
Source: `server.c`, `worker_on_message`
Kind: L -/
theorem readLine_eq (time : List UInt8) {text : List UInt8} (h : colon ∉ text) :
    readLine (time ++ colon :: text) = (readFinding text).map (⟨time, ·⟩) := by
  have hreverse : (time ++ colon :: text).reverse = text.reverse ++ colon :: time.reverse := by
    simp
  have hplain : ∀ b ∈ text.reverse, (b != colon) = true := by
    intro b hb
    exact bne_iff_ne.mpr (ne_of_mem_of_not_mem (List.mem_reverse.mp hb) h)
  have hdrop : (text.reverse ++ colon :: time.reverse).dropWhile (· != colon) =
      colon :: time.reverse := by
    rw [List.dropWhile_append_of_pos hplain, List.dropWhile_cons_of_neg (by simp)]
  have htake : (text.reverse ++ colon :: time.reverse).takeWhile (· != colon) = text.reverse := by
    rw [List.takeWhile_append_of_pos hplain, List.takeWhile_cons_of_neg (by simp), List.append_nil]
  rw [readLine, hreverse, hdrop, htake, List.reverse_reverse]
  simp only [List.reverse_reverse]

/-- A request with the readings its usage was computed from.
Source: `server.c`, `main`, `worker_on_message`
Kind: D -/
structure SampledRequest (R : Rounding) extends LoggedRequest where
  reads : CounterReads
  measured : Measured R env toLoggedRequest.pid reads

namespace SampledRequest

variable {R : Rounding} (r : SampledRequest R)

end SampledRequest

/-! ## The log of some records -/

section handing

variable {n maxSize : ℕ} {records : Fin n → List (List UInt8)} {s s' : Shared n maxSize} {i : Fin n}

/-- The record of the call that a process is in.
Source: `journal.c`, `journal_write`
Kind: D -/
def Writer.current (w : Writer) : List (List UInt8) :=
  match w.pc with
  | .idle => []
  | .locked data | .loaded data _ | .fits data _ | .copied data _ | .stored data
  | .refused data => [data]

/-- Every process passes its records to `journal_write` one by one: those of the calls that have
returned, the one of the call it is in, and those it still has.
Source: `journal.c`, `journal_write`
Kind: D -/
def Shared.HandsOver (records : Fin n → List (List UInt8)) (s : Shared n maxSize) : Prop :=
  ∀ i, (s.returned.filter fun r => r.1 = i).map (fun r => r.2.1) ++
    ((s.writer i).current ++ (s.writer i).pending) = records i

/-- At first every process still has all its records.
Source: `journal.c`, `journal_write`
Kind: L -/
theorem Shared.HandsOver.init (region : Region maxSize) (records : Fin n → List (List UInt8)) :
    (Shared.init region records).HandsOver records := fun _ => rfl

/-- A step inside a call, or into one.
Source: `journal.c`, `journal_write`
Kind: L -/
theorem Shared.HandsOver.move (h : s.HandsOver records) {w : Writer} {region' : Region maxSize}
    (hw : w.current ++ w.pending = (s.writer i).current ++ (s.writer i).pending) :
    Shared.HandsOver records ⟨region', Function.update s.writer i w, s.returned⟩ := by
  intro k
  rw [← h k]
  by_cases hk : k = i
  · subst hk
    simp only [Function.update_self, hw]
  · simp only [Function.update_of_ne hk]

/-- A call returns.
Source: `journal.c`, `journal_write`
Kind: L -/
theorem Shared.HandsOver.returns (h : s.HandsOver records) {data : List UInt8}
    {pending : List (List UInt8)} (status : JournalStatus)
    (hw : (s.writer i).current ++ (s.writer i).pending = data :: pending) :
    (s.returns i data status pending).HandsOver records := by
  intro k
  rw [← h k]
  by_cases hk : k = i
  · subst hk
    rw [hw]
    simp [Shared.returns, Shared.set, Writer.current]
  · simp [Shared.returns, Shared.set, Function.update_of_ne hk, Ne.symm hk]

/-- A step only moves a record from one of the three places to the next.
Source: `journal.c`, `journal_write`
Kind: L -/
theorem Shared.HandsOver.step (h : s.HandsOver records) (hstep : s.step i = some s') :
    s'.HandsOver records := by
  unfold Shared.step at hstep
  cases hpc : (s.writer i).pc with
  | idle =>
      simp only [hpc] at hstep
      cases hpend : (s.writer i).pending with
      | nil => simp [hpend] at hstep
      | cons data rest =>
          simp only [hpend] at hstep
          split_ifs at hstep
          · obtain rfl := Option.some.inj hstep
            exact h.returns _ (by simp [Writer.current, hpc, hpend])
          · obtain rfl := Option.some.inj hstep
            exact h.move (by simp [Writer.current, hpc, hpend])
  | locked data =>
      simp only [hpc, Option.bind_eq_bind, Option.bind_eq_some_iff] at hstep
      obtain ⟨curSize, -, hs'⟩ := hstep
      obtain rfl := Option.some.inj hs'
      exact h.move (by simp [Writer.current, hpc])
  | loaded data curSize =>
      simp only [hpc] at hstep
      split_ifs at hstep
      · obtain rfl := Option.some.inj hstep
        exact h.move (by simp [Writer.current, hpc])
      · obtain rfl := Option.some.inj hstep
        exact h.move (by simp [Writer.current, hpc])
  | fits data curSize =>
      simp only [hpc, Option.bind_eq_bind, Option.bind_eq_some_iff] at hstep
      obtain ⟨region, -, hs'⟩ := hstep
      obtain rfl := Option.some.inj hs'
      exact h.move (by simp [Writer.current, hpc])
  | copied data curSize =>
      simp only [hpc, Option.bind_eq_bind, Option.bind_eq_some_iff] at hstep
      obtain ⟨region, -, hs'⟩ := hstep
      obtain rfl := Option.some.inj hs'
      exact h.move (by simp [Writer.current, hpc])
  | stored data =>
      simp only [hpc] at hstep
      obtain rfl := Option.some.inj hstep
      exact h.returns _ (by simp [Writer.current, hpc])
  | refused data =>
      simp only [hpc] at hstep
      obtain rfl := Option.some.inj hstep
      exact h.returns _ (by simp [Writer.current, hpc])

/-- The stored records of a process are some of its records, in their order.
Source: `server.c`, `worker_on_message`; `journal.c`, `journal_write`
Kind: P -/
theorem Serial.sublist {order : List (Fin n × List UInt8)} (h : Serial s order)
    (hands : s.HandsOver records) (i : Fin n) :
    ((order.filter fun r => r.1 = i).map Prod.snd).Sublist (records i) := by
  have hreturned : ((s.succeeded.filter fun r => r.1 = i).map Prod.snd).Sublist
      ((s.returned.filter fun r => r.1 = i).map fun r => r.2.1) := by
    rw [Shared.succeeded, List.filter_map, List.map_map]
    exact (List.filter_sublist.filter _).map _
  have hcurrent : (((s.writer i).unreturned i).map Prod.snd).Sublist (s.writer i).current := by
    unfold Writer.unreturned Writer.current
    split <;> simp_all
  rw [h.order_eq i, List.map_append, ← hands i]
  exact hreturned.append (hcurrent.trans (List.sublist_append_left _ _))

end handing

section processes

variable {R : Rounding} {n maxSize : ℕ}

/-- The bytes of a record: the greeting, or one of a request.
Source: none: infrastructure
Kind: D -/
def chunk : Option (SampledRequest R) → List UInt8
  | none => greeting.bytes
  | some r => r.record.1.stored

/-- What each process logs: process `0` is `main`, the others are the workers.
Source: `server.c`, `main`, `worker_on_message`
Kind: D -/
def serverLogs (requests : Fin n → List (SampledRequest R)) :
    Fin (n + 1) → List (Option (SampledRequest R)) :=
  Fin.cons [none] fun i => (requests i).map some

/-- The arguments of its calls of `journal_write`.
Source: none: infrastructure
Kind: D -/
def serverRecords (requests : Fin n → List (SampledRequest R)) (i : Fin (n + 1)) :
    List (List UInt8) :=
  (serverLogs requests i).map chunk

end processes

/-! ## A log -/

/-- A request for the pid 7.
Source: none: infrastructure
Kind: D -/
def sevenMessage : Message :=
  ⟨⟨MessageType.pid.code, 4, ⟨0, 0, 0, 0⟩, 4⟩, 7 :: List.replicate maxPayload 0⟩

/-- The worker function has an answer and a reply for this message.
Source: none: infrastructure
Kind: L -/
theorem sevenMessage_inBounds :
    ∃ a m', workerAnswer midnightEnv sevenMessage = some a ∧ a.reply midnightEnv = some m' := by
  obtain ⟨a, m', hanswer, hreply, -⟩ :=
    reply_of_allOk (m := sevenMessage) midnightEnv_allOk
      (by rw [sevenMessage, List.length_cons, List.length_replicate]; omega)
  exact ⟨a, m', hanswer, hreply⟩

/-- At midnight the calls of the journal succeed.
Source: none: infrastructure
Kind: L -/
theorem midnightEnv_journalCalls : midnightEnv.journalCalls = .allOk := rfl

/-- It is answered from two equal samples.
Source: none: infrastructure
Kind: D -/
def sevenRequest : SampledRequest exactly where
  env := midnightEnv
  message := sevenMessage
  known := .inr rfl
  inBounds := sevenMessage_inBounds
  ok := midnightEnv_allOk
  calls := midnightEnv_journalCalls
  time := newline_not_mem_midnight
  reads := sameSamples
  measured := measured_zero rfl

end CpuMonitor.Server
