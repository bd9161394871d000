import CpuMonitor.Server.JournalEntries

/-!
# How long the journal takes every record

`journal_write` refuses a record that does not fit behind the size it has loaded. The processes that
share the region do not exclude each other, so a loaded size may be out of date, and the size that
is stored may be less than what has been written. It is never more: every stored size is a loaded
one plus one record.

* **The budget** `Shared.toWrite`: the bytes the processes will still add to a size. In `Room` the
  stored size and every loaded one leave room for all of them.
* `Room.step` — every step of every process keeps it, whether accepted writes overlap or not.
* `records_accepted` — as long as the records of all processes fit together, each call of
  `journal_write` returns success. A record has at most 256 bytes and the greeting has 26, so in the
  server's 5242880 bytes this is true of the first 20479 requests.

Success says that the record was copied and counted, not that it is still there: two overlapping
writes may both succeed at one place (`record_lost_by_overlap`).
-/

namespace CpuMonitor.Server

open CpuMonitor.Lib CpuMonitor.Network

variable {n maxSize : ℕ}

/-! ## The size word on its own -/

section word

variable {r r' : Region maxSize} {size : ℕ}

/-- A copy behind the size word leaves it as it is.
Source: `journal.c`, `journal_write`
Kind: L -/
theorem loadSize_copy {off : ℕ} {data : List UInt8} (hsize : loadSize r = some size)
    (hbehind : sizeofSizeT ≤ off) (hstore : storeVec r off data = some r') :
    loadSize r' = some size := by
  obtain ⟨hle, hlist⟩ := storeVec_eq_some hstore
  have hoff : off ≤ r.toList.length := by
    rw [List.Vector.toList_length]
    omega
  have hword : 0 + sizeofSizeT ≤ r.toList.length := by omega
  have hword' : 0 + sizeofSizeT ≤ r'.toList.length := by
    rw [List.Vector.toList_length] at hword ⊢
    exact hword
  rw [loadSize, load_of_le hword] at hsize
  rw [loadSize, load_of_le hword', hlist, slice_splice_before (by omega) hoff]
  exact hsize

/-- A size that was stored is loaded back.
Source: `journal.c`, `journal_write`
Kind: L -/
theorem loadSize_storeSize (h64 : size < 2 ^ 64) (hstore : storeSize r size = some r') :
    loadSize r' = some size := by
  obtain ⟨hle, hlist⟩ := storeVec_eq_some hstore
  rw [length_leBytes] at hle
  have hword : 0 + sizeofSizeT ≤ r'.toList.length := by
    rw [List.Vector.toList_length]
    exact hle
  have hlt : size < 256 ^ sizeofSizeT := by
    norm_num [sizeofSizeT] at h64 ⊢
    exact h64
  rw [loadSize, load_of_le hword, hlist, slice_splice_word, Option.map_some,
    leValue_leBytes_of_lt hlt]

end word

/-! ## The budget -/

/-- The bytes that the call a process is in will still add to the size.
Source: none: infrastructure
Kind: D -/
def WritePc.toWrite : WritePc → ℕ
  | .locked data | .loaded data _ | .fits data _ | .copied data _ => data.length
  | .idle | .stored _ | .refused _ => 0

/-- The bytes a process will still add, now or in a later call.
Source: none: infrastructure
Kind: D -/
def Writer.toWrite (w : Writer) : ℕ := w.pc.toWrite + (w.pending.map List.length).sum

/-- The bytes all processes will still add.
Source: none: infrastructure
Kind: D -/
def Shared.toWrite (s : Shared n maxSize) : ℕ := ∑ i, (s.writer i).toWrite

/-- The size a process has loaded and will add its record to.
Source: none: infrastructure
Kind: D -/
def WritePc.base : WritePc → Option ℕ
  | .loaded _ size | .fits _ size | .copied _ size => some size
  | .idle | .locked _ | .stored _ | .refused _ => none

/-- Where one process may be, when `rest` bytes are still to be written: its mutex is locked exactly
inside a call, no check has failed, and the size it has loaded leaves room for all of them.
Source: none: infrastructure
Kind: D -/
structure Writer.Room (total rest : ℕ) (w : Writer) : Prop where
  mutex : w.mutex = false ↔ w.pc = .idle
  not_refused : ∀ data, w.pc ≠ .refused data
  base : ∀ size ∈ w.pc.base, sizeofSizeT ≤ size ∧ size + rest ≤ total

/-- The stored size and every loaded one leave room for what is still to be written, and every call
so far has returned success.
Source: none: infrastructure
Kind: D -/
structure Shared.Room (total : ℕ) (s : Shared n maxSize) : Prop where
  size : ∃ size, loadSize s.region = some size ∧ sizeofSizeT ≤ size ∧ size + s.toWrite ≤ total
  writer : ∀ i, (s.writer i).Room total s.toWrite
  returned : ∀ r ∈ s.returned, r.2.2 = .success

section step

variable {total : ℕ} {s s' : Shared n maxSize} {i : Fin n}

/-- A process that moves changes its own part of what is still to be written.
Source: `journal.c`, `journal_write`
Kind: L -/
theorem Shared.toWrite_move (s : Shared n maxSize) (i : Fin n) (w : Writer)
    (region' : Region maxSize) (returned' : List (Fin n × List UInt8 × JournalStatus)) :
    Shared.toWrite ⟨region', Function.update s.writer i w, returned'⟩ + (s.writer i).toWrite =
      s.toWrite + w.toWrite := by
  have hupdate : (fun k => (Function.update s.writer i w k).toWrite) =
      Function.update (fun k => (s.writer k).toWrite) i w.toWrite := by
    funext k
    by_cases hk : k = i
    · subst hk
      simp
    · simp [Function.update_of_ne hk]
  have hself := Finset.add_sum_erase Finset.univ (fun k => (s.writer k).toWrite)
    (Finset.mem_univ i)
  have hmoved := Finset.sum_update_of_mem (Finset.mem_univ i) (fun k => (s.writer k).toWrite)
    w.toWrite
  rw [Finset.sdiff_singleton_eq_erase] at hmoved
  unfold Shared.toWrite
  rw [hupdate, hmoved]
  omega

/-- A process does not exceed what all have still to write.
Source: `journal.c`, `journal_write`
Kind: L -/
theorem Shared.toWrite_le (s : Shared n maxSize) (i : Fin n) :
    (s.writer i).toWrite ≤ s.toWrite :=
  Finset.single_le_sum (f := fun k => (s.writer k).toWrite) (fun _ _ => Nat.zero_le _)
    (Finset.mem_univ i)

/-- A process has room the more so, the less is still to be written.
Source: `journal.c`, `journal_write`
Kind: L -/
theorem Writer.Room.mono {w : Writer} {rest rest' : ℕ} (h : w.Room total rest)
    (hle : rest' ≤ rest) : w.Room total rest' := by
  refine ⟨h.mutex, h.not_refused, fun size hsize => ?_⟩
  obtain ⟨hbehind, hroom⟩ := h.base size hsize
  exact ⟨hbehind, by omega⟩

/-- Inside a call the mutex is locked.
Source: `journal.c`, `journal_write`
Kind: L -/
theorem Writer.Room.locked {w : Writer} {rest : ℕ} (h : w.Room total rest) (hpc : w.pc ≠ .idle) :
    w.mutex = true := by
  by_contra hmutex
  exact hpc (h.mutex.mp (by simpa using hmutex))

/-- A process between its load and its store.
Source: `journal.c`, `journal_write`
Kind: L -/
theorem Writer.Room.of_base {w : Writer} {rest size : ℕ} (hmutex : w.mutex = true)
    (hbase : w.pc.base = some size) (hbehind : sizeofSizeT ≤ size) (hroom : size + rest ≤ total) :
    w.Room total rest := by
  refine ⟨?_, fun data hpc => ?_, fun size' hsize' => ?_⟩
  · have hpc : w.pc ≠ .idle := by
      intro hpc
      simp [hpc, WritePc.base] at hbase
    simp [hmutex, hpc]
  · simp [hpc, WritePc.base] at hbase
  · rw [hbase] at hsize'
    obtain rfl := Option.mem_some.mp hsize'
    exact ⟨hbehind, hroom⟩

/-- **One process moves.** What has to be shown for a step of process `i` to `w`, with the region
`region'` and the returned calls `returned'` afterwards: it has no more to write than before.
Source: `journal.c`, `journal_write`
Kind: L -/
theorem Shared.Room.move (h : s.Room total) {w : Writer} {region' : Region maxSize}
    {returned' : List (Fin n × List UInt8 × JournalStatus)}
    (hless : w.toWrite ≤ (s.writer i).toWrite)
    (hsize : ∃ size, loadSize region' = some size ∧ sizeofSizeT ≤ size ∧
      size + (s.toWrite + w.toWrite - (s.writer i).toWrite) ≤ total)
    (hw : w.Room total s.toWrite) (hreturned : ∀ r ∈ returned', r.2.2 = .success) :
    Shared.Room total ⟨region', Function.update s.writer i w, returned'⟩ := by
  have hmove := s.toWrite_move i w region' returned'
  have hle : Shared.toWrite ⟨region', Function.update s.writer i w, returned'⟩ ≤ s.toWrite := by
    omega
  refine ⟨?_, fun k => ?_, hreturned⟩
  · obtain ⟨size, hload, hbehind, hroom⟩ := hsize
    exact ⟨size, hload, hbehind, by omega⟩
  · by_cases hk : k = i
    · subst hk
      simpa using hw.mono hle
    · simpa [Function.update_of_ne hk] using (h.writer k).mono hle

/-- A step that leaves the region and the returned calls alone.
Source: `journal.c`, `journal_write`
Kind: L -/
theorem Shared.Room.set (h : s.Room total) {w : Writer}
    (hsame : w.toWrite = (s.writer i).toWrite) (hw : w.Room total s.toWrite) :
    (s.set i w).Room total := by
  obtain ⟨size, hload, hbehind, hroom⟩ := h.size
  exact h.move hsame.le ⟨size, hload, hbehind, by omega⟩ hw h.returned

/-- A call that has nothing left to add returns success.
Source: `journal.c`, `journal_write`
Kind: L -/
theorem Shared.Room.returns (h : s.Room total) {data : List UInt8} {pending : List (List UInt8)}
    (hsame : (pending.map List.length).sum = (s.writer i).toWrite) :
    (s.returns i data .success pending).Room total := by
  obtain ⟨size, hload, hbehind, hroom⟩ := h.size
  have hw : (⟨false, .idle, pending⟩ : Writer).toWrite = (s.writer i).toWrite := by
    rw [Writer.toWrite, WritePc.toWrite, Nat.zero_add, hsame]
  refine h.move hw.le ⟨size, hload, hbehind, by omega⟩ ⟨by simp, by simp, by simp [WritePc.base]⟩ ?_
  intro r hr
  rcases List.mem_append.mp hr with hr | hr
  · exact h.returned r hr
  · rw [List.mem_singleton.mp hr]

/-- What a process inside a call has loaded, and the room for its record.
Source: `journal.c`, `journal_write`
Kind: L -/
theorem Shared.Room.fits (h : s.Room total) {data : List UInt8} {size : ℕ}
    (hbase : size ∈ (s.writer i).pc.base) (hdata : (s.writer i).pc.toWrite = data.length) :
    sizeofSizeT ≤ size ∧ size + data.length ≤ total ∧ size + s.toWrite ≤ total := by
  obtain ⟨hbehind, hroom⟩ := (h.writer i).base size hbase
  have hle := s.toWrite_le i
  rw [Writer.toWrite, hdata] at hle
  exact ⟨hbehind, by omega, hroom⟩

/-- **One step keeps the room**, and a process that has something to do can take one. Nothing is
asked of the other processes.
Source: `journal.c`, `journal_write`
Kind: P -/
theorem Shared.Room.step (h : s.Room total) (htotal : total ≤ maxSize) (h64 : maxSize < 2 ^ 64)
    (i : Fin n) (hbusy : (s.writer i).pc ≠ .idle ∨ (s.writer i).pending ≠ []) :
    ∃ s', s.step i = some s' ∧ s'.Room total := by
  have hw := h.writer i
  unfold Shared.step
  cases hpc : (s.writer i).pc with
  | idle =>
      cases hpend : (s.writer i).pending with
      | nil => simp [hpc, hpend] at hbusy
      | cons data rest =>
          have hmutex : (s.writer i).mutex = false := hw.mutex.mpr hpc
          simp only [hpc, hpend, hmutex, Bool.false_eq_true, if_false]
          split_ifs with hzero
          · refine ⟨_, rfl, h.returns ?_⟩
            simp [Writer.toWrite, WritePc.toWrite, hpc, hpend, hzero]
          · refine ⟨_, rfl, h.set ?_ ⟨by simp, by simp, by simp [WritePc.base]⟩⟩
            simp [Writer.toWrite, WritePc.toWrite, hpc, hpend]
  | locked data =>
      -- the loaded size is the stored one
      obtain ⟨size, hload, hbehind, hroom⟩ := h.size
      have hmutex := hw.locked (by simp [hpc])
      simp only [hpc, hload, Option.bind_eq_bind, Option.bind_some]
      refine ⟨_, rfl, h.set ?_ (.of_base hmutex rfl hbehind hroom)⟩
      simp [Writer.toWrite, WritePc.toWrite, hpc]
  | loaded data size =>
      -- the check passes: the sum does not wrap, and it is within the total
      obtain ⟨hbehind, hfits, hroom⟩ :=
        h.fits (by rw [hpc]; rfl) (show (s.writer i).pc.toWrite = data.length by rw [hpc]; rfl)
      have hpass : ¬addSizeT size data.length > maxSize := by
        rw [addSizeT_of_lt (by omega)]
        omega
      have hmutex := hw.locked (by simp [hpc])
      simp only [hpc, if_neg hpass]
      refine ⟨_, rfl, h.set ?_ (.of_base hmutex rfl hbehind hroom)⟩
      simp [Writer.toWrite, WritePc.toWrite, hpc]
  | fits data size =>
      -- the copy is behind the size word
      obtain ⟨hbehind, hfits, hroom⟩ :=
        h.fits (by rw [hpc]; rfl) (show (s.writer i).pc.toWrite = data.length by rw [hpc]; rfl)
      obtain ⟨region', hstore, -⟩ :=
        storeVec_of_le (v := s.region) (show size + data.length ≤ maxSize by omega)
      have hmutex := hw.locked (by simp [hpc])
      simp only [hpc, hstore, Option.bind_eq_bind, Option.bind_some]
      have hsame : (⟨(s.writer i).mutex, .copied data size, (s.writer i).pending⟩ : Writer).toWrite
          = (s.writer i).toWrite := by
        simp [Writer.toWrite, WritePc.toWrite, hpc]
      refine ⟨_, rfl, h.move hsame.le ?_ (.of_base hmutex rfl hbehind hroom) h.returned⟩
      obtain ⟨stored, hload, hstored, htail⟩ := h.size
      exact ⟨stored, loadSize_copy hload hbehind hstore, hstored, by omega⟩
  | copied data size =>
      -- the record is counted: the size grows by what is no longer to be written
      obtain ⟨hbehind, hfits, hroom⟩ :=
        h.fits (by rw [hpc]; rfl) (show (s.writer i).pc.toWrite = data.length by rw [hpc]; rfl)
      have hword : 0 + (leBytes sizeofSizeT (size + data.length)).length ≤ maxSize := by
        rw [length_leBytes]
        omega
      obtain ⟨region', hstore, -⟩ := storeVec_of_le (v := s.region) hword
      have hstore' : storeSize s.region (size + data.length) = some region' := hstore
      have hadd : addSizeT size data.length = size + data.length := addSizeT_of_lt (by omega)
      simp only [hpc, hadd, hstore', Option.bind_eq_bind, Option.bind_some]
      have hless : (⟨(s.writer i).mutex, .stored data, (s.writer i).pending⟩ : Writer).toWrite +
          data.length = (s.writer i).toWrite := by
        simp [Writer.toWrite, WritePc.toWrite, hpc, Nat.add_comm]
      have hle := s.toWrite_le i
      refine ⟨_, rfl, h.move (by omega) ?_ ⟨?_, by simp, by simp [WritePc.base]⟩ h.returned⟩
      · exact ⟨_, loadSize_storeSize (by omega) hstore', by omega, by omega⟩
      · simpa [hpc] using hw.mutex
  | stored data =>
      simp only [hpc]
      refine ⟨_, rfl, h.returns ?_⟩
      simp [Writer.toWrite, WritePc.toWrite, hpc]
  | refused data => exact absurd hpc (hw.not_refused data)

/-- A process takes a step only if it has something to do.
Source: `journal.c`, `journal_write`
Kind: L -/
theorem Shared.busy_of_step (hstep : s.step i = some s') :
    (s.writer i).pc ≠ .idle ∨ (s.writer i).pending ≠ [] := by
  by_contra hidle
  push Not at hidle
  simp [Shared.step, hidle.1, hidle.2] at hstep

/-- The forked processes, with records that fit together.
Source: `journal.c`, `journal_write`
Kind: L -/
theorem Shared.Room.init {region : Region maxSize} {records : Fin n → List (List UInt8)}
    (hsize : loadSize region = some sizeofSizeT)
    (hfit : sizeofSizeT + ∑ i, ((records i).map List.length).sum ≤ total) :
    (Shared.init region records).Room total := by
  refine ⟨⟨sizeofSizeT, hsize, le_rfl, ?_⟩, fun i => ⟨by simp [Shared.init], ?_, ?_⟩, ?_⟩
  · simpa [Shared.toWrite, Shared.init, Writer.toWrite, WritePc.toWrite] using hfit
  · simp [Shared.init]
  · simp [Shared.init, WritePc.base]
  · simp [Shared.init]

end step

/-! ## The records of the server -/

section processes

variable {R : Rounding}

/-- A record of a request fills at most the handler's buffer, and the greeting has 26 bytes.
Source: `journal.c`, `journal_write`
Kind: L -/
theorem length_chunk_le (c : Option (SampledRequest R)) :
    (chunk c).length ≤ if c.isNone then 26 else textBufferSize := by
  cases c with
  | none =>
      have hgreeting : greeting.bytes.length = 26 := by decide +kernel
      exact hgreeting.le
  | some r =>
      have hlt := r.record.2
      rw [chunk, CString.length_stored]
      exact hlt

/-- The bytes that the processes log together.
Source: `journal.c`, `journal_write`
Kind: L -/
theorem sum_serverRecords_le (requests : Fin n → List (SampledRequest R)) :
    ∑ i, ((serverRecords requests i).map List.length).sum ≤
      26 + textBufferSize * ∑ i, (requests i).length := by
  have hmain : ((serverRecords requests 0).map List.length).sum ≤ 26 := by
    simpa [serverRecords, serverLogs] using length_chunk_le (none : Option (SampledRequest R))
  have hworker : ∀ i : Fin n, ((serverRecords requests i.succ).map List.length).sum ≤
      textBufferSize * (requests i).length := by
    intro i
    have hle := List.sum_le_card_nsmul ((serverRecords requests i.succ).map List.length)
      textBufferSize (by
        intro length hlength
        obtain ⟨record, hrecord, rfl⟩ := List.mem_map.mp hlength
        obtain ⟨c, hc, rfl⟩ := List.mem_map.mp hrecord
        obtain ⟨r, -, rfl⟩ := List.mem_map.mp hc
        exact length_chunk_le (some r))
    simpa [serverRecords, serverLogs, Nat.mul_comm] using hle
  rw [Fin.sum_univ_succ, Finset.mul_sum]
  exact Nat.add_le_add hmain (Finset.sum_le_sum fun i _ => hworker i)

/-- **While there is room every record is accepted.** For every number of workers, every sequence of
requests of each of them and every interleaving of their calls of `journal_write`, overlapping
writes included, and at every moment: if the region has room for the greeting and 256 bytes for each
request, the calls of each process that have returned are those for its first records, in order, and
all of them returned success; no process with a call to make or to finish is stuck; and the stored
size is within the region.
Source: `journal.c`, `journal_write`; `server.c`, `main`, `worker_on_message`
Kind: P
Hyps: `hroom` holds for up to 20479 requests in the server's journal -/
theorem records_accepted (h64 : maxSize < 2 ^ 64) (requests : Fin n → List (SampledRequest R))
    (hroom : sizeofSizeT + (26 + textBufferSize * ∑ i, (requests i).length) ≤ maxSize)
    {region : Region maxSize}
    (hcreate : journalCreate .allOk maxSize = some ⟨maxSize, region⟩)
    {sched : List (Fin (n + 1))} {s : Shared (n + 1) maxSize}
    (hrun : Run Shared.step (fun _ _ => True)
      (Shared.init region (serverRecords requests)) sched s) :
    (∀ i, (s.returned.filter fun r => r.1 = i).map Prod.snd <+:
        (serverRecords requests i).map fun record => (record, JournalStatus.success)) ∧
      (∀ i, (s.writer i).pc ≠ .idle ∨ (s.writer i).pending ≠ [] → (s.step i).isSome) ∧
      ∃ size, loadSize s.region = some size ∧ sizeofSizeT ≤ size ∧ size ≤ maxSize := by
  have hsum := sum_serverRecords_le requests
  have hload : loadSize region = some sizeofSizeT := by
    have hholds := holds_of_journalCreate h64 hcreate
    simpa using hholds.loadSize
  obtain ⟨hkept, hands⟩ := hrun.invariant
    (I := fun s => s.Room maxSize ∧ s.HandsOver (serverRecords requests))
    ⟨.init hload (by omega), .init region _⟩
    (fun s i s' ⟨hkept, hands⟩ _ hstep => by
      obtain ⟨t, ht, hroom'⟩ := hkept.step le_rfl h64 i (Shared.busy_of_step hstep)
      rw [hstep] at ht
      obtain rfl := Option.some.inj ht
      exact ⟨hroom', hands.step hstep⟩)
  refine ⟨fun i => ?_, fun i hbusy => ?_, ?_⟩
  · -- the returned calls are those of the records passed so far, and all succeeded
    have hcalls : (s.returned.filter fun r => r.1 = i).map Prod.snd =
        ((s.returned.filter fun r => r.1 = i).map fun r => r.2.1).map
          fun record => (record, JournalStatus.success) := by
      rw [List.map_map]
      apply List.map_congr_left
      intro r hr
      have hsuccess := hkept.returned r (List.mem_of_mem_filter hr)
      exact Prod.ext rfl hsuccess
    rw [hcalls, ← hands i]
    exact (List.prefix_append _ _).map _
  · obtain ⟨s', hs', -⟩ := hkept.step le_rfl h64 i hbusy
    rw [hs']
    rfl
  · obtain ⟨size, hsize, hbehind, hle⟩ := hkept.size
    exact ⟨size, hsize, hbehind, by omega⟩

end processes

/-- The region has 290 bytes.
Source: none: infrastructure
Kind: L -/
theorem length_roomForOne : (8 :: List.replicate 289 (0 : UInt8)).length = 290 := by
  rw [List.length_cons, List.length_replicate]

/-- A fresh region with room for the greeting and one request.
Source: none: infrastructure
Kind: D -/
def roomForOne : Region 290 := ⟨8 :: List.replicate 289 0, length_roomForOne⟩

/-- It is what `journal_create` returns for this size.
Source: `journal.c`, `journal_create`
Kind: L -/
theorem journalCreate_roomForOne : journalCreate .allOk 290 = some ⟨290, roomForOne⟩ := by
  have hstore : storeSize (List.Vector.replicate 290 0) sizeofSizeT = some roomForOne := by
    decide +kernel
  unfold journalCreate
  rw [if_neg (by decide), hstore]
  rfl

/-- `main` and a worker load the same size: both calls return success.
Source: `journal.c`, `journal_write`
Kind: C -/
theorem records_accepted_overlapping :
    ∃ s : Shared 2 290,
      Run Shared.step (fun _ _ => True)
        (Shared.init roomForOne (serverRecords fun _ : Fin 1 => [sevenRequest]))
        [0, 1, 0, 1, 0, 1, 0, 1, 0, 1, 0, 1] s ∧
      s.returned.map Prod.fst = [0, 1] ∧ s.AllReturned ∧
      ∀ i, (s.returned.filter fun r => r.1 = i).map Prod.snd <+:
        (serverRecords (fun _ : Fin 1 => [sevenRequest]) i).map
          fun record => (record, JournalStatus.success) := by
  obtain ⟨s, hrun, hall⟩ := Run.exists_of_exec (show
    (exec Shared.step (fun _ _ => True)
      (Shared.init roomForOne (serverRecords fun _ : Fin 1 => [sevenRequest]))
      [0, 1, 0, 1, 0, 1, 0, 1, 0, 1, 0, 1]).map (fun s => decide
        (s.returned.map Prod.fst = [0, 1] ∧
          ∀ i, (s.writer i).pc = .idle ∧ (s.writer i).pending = [])) = some true by
    decide +kernel)
  obtain ⟨hreturned, hdone⟩ := of_decide_eq_true hall
  refine ⟨s, hrun, hreturned, hdone, ?_⟩
  exact (records_accepted (by norm_num) (fun _ : Fin 1 => [sevenRequest])
    (by norm_num [sizeofSizeT, textBufferSize]) journalCreate_roomForOne hrun).1

end CpuMonitor.Server
