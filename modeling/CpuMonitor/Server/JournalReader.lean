import CpuMonitor.Server.JournalShared

/-!
# A reader beside the writers of the journal

The parent reads the journal (`journal_receiver_job`, `journal_read`) while the workers write to it.
After the forks the mutexes are different copies, so nothing keeps the reader's copy of the content
apart from a write in progress.

* **The system** `Watched n`: the region, at most one active `journal_write`, the parent's
  `journal_read`, the records whose new size has been stored and the results of the reads that
  succeeded. `Watched.step` interleaves the two byte by byte, the bytes in any order; an active
  writer can be killed anywhere.
  `WatchMoved` says once what a step can do.
* **The invariant** `Watched.Inv`: the region holds the completed records, a copy in progress goes
  behind them, and the bytes the reader has are those of the records that were complete when it
  loaded the size.
* `reads_whole_records` — every read that succeeds returns whole completed records, and later reads
  extend earlier ones.
* `write_in_a_row`, `read_in_a_row`: undisturbed, the steps are `journalWrite` and `journalRead`.
-/

namespace CpuMonitor.Server

open CpuMonitor.Lib

/-! ## The system -/

/-- Where the active `journal_write` is, with the local variables of the call.
Source: `journal.c`, `journal_write`
Kind: D -/
inductive AppendPc
  /-- No call is active. -/
  | idle
  /-- Before the load of the size. -/
  | begun (data : List UInt8)
  /-- `cur_size` is loaded. -/
  | loaded (data : List UInt8) (curSize : ℕ)
  /-- The capacity check has passed, and these bytes of the data are copied. -/
  | copying (data : List UInt8) (curSize : ℕ) (copied : Finset ℕ)
  /-- The new size is stored. -/
  | stored
  deriving DecidableEq

/-- Where `journal_read` is, with the local variables of the call and the caller's buffer.
Source: `journal.c`, `journal_read`
Kind: D -/
inductive ReadPc
  /-- Between two calls. -/
  | idle
  /-- Before the load of the size. -/
  | begun (buffer : List UInt8) (bufferSize : ℕ)
  /-- `cur_size` is loaded. -/
  | loaded (buffer : List UInt8) (bufferSize curSize : ℕ)
  /-- The size check has passed, and these bytes of the content are copied. -/
  | copying (buffer : List UInt8) (curSize : ℕ) (copied : Finset ℕ)
  deriving DecidableEq

/-- The region, the active writer, the reader, and the history: the records whose size has been
stored and the results of the reads that returned `JOURNAL_STATUS_SUCCESS`.
Source: `journal.c`, `journal_write`, `journal_read`
Kind: D -/
structure Watched (n : ℕ) where
  region : Region n
  writer : AppendPc
  reader : ReadPc
  completed : List (List UInt8)
  results : List (List UInt8)

/-- Who takes which step.
Source: `journal.c`, `journal_write`, `journal_read`
Kind: D -/
inductive WatchLabel
  /-- A worker calls `journal_write`. -/
  | writeBegin (data : List UInt8)
  | writeLoad
  | writeCheck
  /-- The byte number `i` of the data is copied. -/
  | writeByte (i : ℕ)
  | writeStore
  | writeReturn
  /-- The active writer is killed. -/
  | kill
  /-- The parent calls `journal_read`. -/
  | readBegin (buffer : List UInt8) (bufferSize : ℕ)
  | readLoad
  | readCheck
  /-- The byte number `i` of the content is copied. -/
  | readByte (i : ℕ)
  | readReturn
  deriving DecidableEq

variable {n : ℕ}

/-- A new journal.
Source: `journal.c`, `journal_create`
Kind: D -/
def Watched.init (region : Region n) : Watched n := ⟨region, .idle, .idle, [], []⟩

/-- One step; `none` if the party is elsewhere, or would copy outside the region or the buffer.
Source: `journal.c`, `journal_write`, `journal_read`
Kind: D
Fidelity: exact (the `pthread_*` calls succeed; `memcpy` of the data in any order, of the size in
one step) -/
def Watched.step (s : Watched n) : WatchLabel → Option (Watched n)
  | .writeBegin data =>
      match s.writer with
      | .idle =>
          if data.length = 0 then some { s with completed := s.completed ++ [data] }
          else some { s with writer := .begun data }
      | _ => none
  | .writeLoad =>
      match s.writer with
      | .begun data => do
          let curSize ← loadSize s.region
          some { s with writer := .loaded data curSize }
      | _ => none
  | .writeCheck =>
      match s.writer with
      | .loaded data curSize =>
          if addSizeT curSize data.length > n then some { s with writer := .idle }
          else some { s with writer := .copying data curSize ∅ }
      | _ => none
  | .writeByte i =>
      match s.writer with
      | .copying data curSize copied => do
          let byte ← data[i]?
          let region ← storeVec s.region (curSize + i) [byte]
          some { s with region := region, writer := .copying data curSize (insert i copied) }
      | _ => none
  | .writeStore =>
      match s.writer with
      | .copying data curSize copied =>
          if ∀ i < data.length, i ∈ copied then do
            let region ← storeSize s.region (addSizeT curSize data.length)
            some { s with
              region := region, writer := .stored, completed := s.completed ++ [data] }
          else none
      | _ => none
  | .writeReturn =>
      match s.writer with
      | .stored => some { s with writer := .idle }
      | _ => none
  | .kill => if s.writer = .idle then none else some { s with writer := .idle }
  | .readBegin buffer bufferSize =>
      match s.reader with
      | .idle => some { s with reader := .begun buffer bufferSize }
      | _ => none
  | .readLoad =>
      match s.reader with
      | .begun buffer bufferSize => do
          let curSize ← loadSize s.region
          some { s with reader := .loaded buffer bufferSize curSize }
      | _ => none
  | .readCheck =>
      match s.reader with
      | .loaded buffer bufferSize curSize =>
          if bufferSize < curSize then some { s with reader := .idle }
          else some { s with reader := .copying buffer curSize ∅ }
      | _ => none
  | .readByte i =>
      match s.reader with
      | .copying buffer curSize copied =>
          if i < subSizeT curSize sizeofSizeT then do
            let byte ← load s.region.toList (sizeofSizeT + i) 1
            let buffer ← store buffer i byte
            some { s with reader := .copying buffer curSize (insert i copied) }
          else none
      | _ => none
  | .readReturn =>
      match s.reader with
      | .copying buffer curSize copied =>
          if ∀ i < subSizeT curSize sizeofSizeT, i ∈ copied then
            some { s with
              reader := .idle
              results := s.results ++ [buffer.take (subSizeT curSize sizeofSizeT)] }
          else none
      | _ => none

/-! ## What a step can do -/

/-- The steps of the reader; the others are those of the writer.
Source: none: infrastructure
Kind: D -/
def WatchLabel.ofReader : WatchLabel → Bool
  | .readBegin _ _ | .readLoad | .readCheck | .readByte _ | .readReturn => true
  | .writeBegin _ | .writeLoad | .writeCheck | .writeByte _ | .writeStore | .writeReturn
  | .kill => false

/-- What each step can do: one case for each outcome.
Source: `journal.c`, `journal_write`, `journal_read`
Kind: D -/
inductive WatchMoved (s : Watched n) : WatchLabel → Watched n → Prop
  | writeEmpty {data : List UInt8} (pc : s.writer = .idle) (empty : data = []) :
      WatchMoved s (.writeBegin data) { s with completed := s.completed ++ [data] }
  | writeBegin {data : List UInt8} (pc : s.writer = .idle) (nonempty : data ≠ []) :
      WatchMoved s (.writeBegin data) { s with writer := .begun data }
  | writeLoad {data : List UInt8} {curSize : ℕ} (pc : s.writer = .begun data)
      (load : loadSize s.region = some curSize) :
      WatchMoved s .writeLoad { s with writer := .loaded data curSize }
  | writeRefused {data : List UInt8} {curSize : ℕ} (pc : s.writer = .loaded data curSize)
      (full : addSizeT curSize data.length > n) :
      WatchMoved s .writeCheck { s with writer := .idle }
  | writeCheck {data : List UInt8} {curSize : ℕ} (pc : s.writer = .loaded data curSize)
      (fits : ¬addSizeT curSize data.length > n) :
      WatchMoved s .writeCheck { s with writer := .copying data curSize ∅ }
  | writeByte {i : ℕ} {data : List UInt8} {curSize : ℕ} {copied : Finset ℕ} {byte : UInt8}
      {region : Region n} (pc : s.writer = .copying data curSize copied)
      (read : data[i]? = some byte) (store : storeVec s.region (curSize + i) [byte] = some region) :
      WatchMoved s (.writeByte i)
        { s with region := region, writer := .copying data curSize (insert i copied) }
  | writeStore {data : List UInt8} {curSize : ℕ} {copied : Finset ℕ} {region : Region n}
      (pc : s.writer = .copying data curSize copied) (all : ∀ i < data.length, i ∈ copied)
      (store : storeSize s.region (addSizeT curSize data.length) = some region) :
      WatchMoved s .writeStore
        { s with region := region, writer := .stored, completed := s.completed ++ [data] }
  | writeReturn (pc : s.writer = .stored) : WatchMoved s .writeReturn { s with writer := .idle }
  | kill (busy : s.writer ≠ .idle) : WatchMoved s .kill { s with writer := .idle }
  | readBegin {buffer : List UInt8} {bufferSize : ℕ} (pc : s.reader = .idle) :
      WatchMoved s (.readBegin buffer bufferSize) { s with reader := .begun buffer bufferSize }
  | readLoad {buffer : List UInt8} {bufferSize curSize : ℕ}
      (pc : s.reader = .begun buffer bufferSize) (load : loadSize s.region = some curSize) :
      WatchMoved s .readLoad { s with reader := .loaded buffer bufferSize curSize }
  | readRefused {buffer : List UInt8} {bufferSize curSize : ℕ}
      (pc : s.reader = .loaded buffer bufferSize curSize) (small : bufferSize < curSize) :
      WatchMoved s .readCheck { s with reader := .idle }
  | readCheck {buffer : List UInt8} {bufferSize curSize : ℕ}
      (pc : s.reader = .loaded buffer bufferSize curSize) (fits : ¬bufferSize < curSize) :
      WatchMoved s .readCheck { s with reader := .copying buffer curSize ∅ }
  | readByte {i : ℕ} {buffer buffer' byte : List UInt8} {curSize : ℕ} {copied : Finset ℕ}
      (pc : s.reader = .copying buffer curSize copied) (inside : i < subSizeT curSize sizeofSizeT)
      (load : load s.region.toList (sizeofSizeT + i) 1 = some byte)
      (store : store buffer i byte = some buffer') :
      WatchMoved s (.readByte i) { s with reader := .copying buffer' curSize (insert i copied) }
  | readReturn {buffer : List UInt8} {curSize : ℕ} {copied : Finset ℕ}
      (pc : s.reader = .copying buffer curSize copied)
      (all : ∀ i < subSizeT curSize sizeofSizeT, i ∈ copied) :
      WatchMoved s .readReturn
        { s with
          reader := .idle
          results := s.results ++ [buffer.take (subSizeT curSize sizeofSizeT)] }

/-- The steps of a write.
Source: `journal.c`, `journal_write`
Kind: L -/
theorem watchMoved_of_write {s s' : Watched n} {l : WatchLabel} (hs : s.step l = some s')
    (hl : l.ofReader = false) : WatchMoved s l s' := by
  cases l with
  | writeBegin data =>
      simp only [Watched.step] at hs
      split at hs
      · rename_i pc
        split_ifs at hs with hzero
        · cases hs
          exact .writeEmpty pc (List.length_eq_zero_iff.mp hzero)
        · cases hs
          exact .writeBegin pc fun hnil => hzero (List.length_eq_zero_iff.mpr hnil)
      · cases hs
  | writeLoad =>
      simp only [Watched.step] at hs
      split at hs
      · rename_i pc
        obtain ⟨curSize, hload, hs⟩ := Option.bind_eq_some_iff.mp hs
        cases hs
        exact .writeLoad pc hload
      · cases hs
  | writeCheck =>
      simp only [Watched.step] at hs
      split at hs
      · rename_i pc
        split_ifs at hs with hfull
        · cases hs
          exact .writeRefused pc hfull
        · cases hs
          exact .writeCheck pc hfull
      · cases hs
  | writeByte i =>
      simp only [Watched.step] at hs
      split at hs
      · rename_i pc
        obtain ⟨byte, hbyte, hs⟩ := Option.bind_eq_some_iff.mp hs
        obtain ⟨region, hstore, hs⟩ := Option.bind_eq_some_iff.mp hs
        cases hs
        exact .writeByte pc hbyte hstore
      · cases hs
  | writeStore =>
      simp only [Watched.step] at hs
      split at hs
      · rename_i pc
        split_ifs at hs with hall
        obtain ⟨region, hstore, hs⟩ := Option.bind_eq_some_iff.mp hs
        cases hs
        exact .writeStore pc hall hstore
      · cases hs
  | writeReturn =>
      simp only [Watched.step] at hs
      split at hs
      · rename_i pc
        cases hs
        exact .writeReturn pc
      · cases hs
  | kill =>
      simp only [Watched.step] at hs
      split_ifs at hs with hidle
      cases hs
      exact .kill hidle
  | _ => cases hl

/-- The steps of a read.
Source: `journal.c`, `journal_read`
Kind: L -/
theorem watchMoved_of_read {s s' : Watched n} {l : WatchLabel} (hs : s.step l = some s')
    (hl : l.ofReader = true) : WatchMoved s l s' := by
  cases l with
  | readBegin buffer bufferSize =>
      simp only [Watched.step] at hs
      split at hs
      · rename_i pc
        cases hs
        exact .readBegin pc
      · cases hs
  | readLoad =>
      simp only [Watched.step] at hs
      split at hs
      · rename_i pc
        obtain ⟨curSize, hload, hs⟩ := Option.bind_eq_some_iff.mp hs
        cases hs
        exact .readLoad pc hload
      · cases hs
  | readCheck =>
      simp only [Watched.step] at hs
      split at hs
      · rename_i pc
        split_ifs at hs with hsmall
        · cases hs
          exact .readRefused pc hsmall
        · cases hs
          exact .readCheck pc hsmall
      · cases hs
  | readByte i =>
      simp only [Watched.step] at hs
      split at hs
      · rename_i pc
        split_ifs at hs with hi
        obtain ⟨byte, hload, hs⟩ := Option.bind_eq_some_iff.mp hs
        obtain ⟨buffer', hstore, hs⟩ := Option.bind_eq_some_iff.mp hs
        cases hs
        exact .readByte pc hi hload hstore
      · cases hs
  | readReturn =>
      simp only [Watched.step] at hs
      split at hs
      · rename_i pc
        split_ifs at hs with hall
        cases hs
        exact .readReturn pc hall
      · cases hs
  | _ => cases hl

/-- A step of the writer leaves the reader alone.
Source: `journal.c`, `journal_write`
Kind: L -/
theorem WatchMoved.reader_eq {s s' : Watched n} {l : WatchLabel} (hm : WatchMoved s l s')
    (hl : l.ofReader = false) : s'.reader = s.reader ∧ s'.results = s.results := by
  cases hm with
  | readBegin pc => cases hl
  | readLoad pc load => cases hl
  | readRefused pc small => cases hl
  | readCheck pc fits => cases hl
  | readByte pc inside load store => cases hl
  | readReturn pc all => cases hl
  | _ => exact ⟨rfl, rfl⟩

/-- A step of the reader leaves the journal and its writer alone.
Source: `journal.c`, `journal_read`
Kind: L -/
theorem WatchMoved.writer_eq {s s' : Watched n} {l : WatchLabel} (hm : WatchMoved s l s')
    (hl : l.ofReader = true) :
    s'.region = s.region ∧ s'.writer = s.writer ∧ s'.completed = s.completed := by
  cases hm with
  | readBegin pc => exact ⟨rfl, rfl, rfl⟩
  | readLoad pc load => exact ⟨rfl, rfl, rfl⟩
  | readRefused pc small => exact ⟨rfl, rfl, rfl⟩
  | readCheck pc fits => exact ⟨rfl, rfl, rfl⟩
  | readByte pc inside load store => exact ⟨rfl, rfl, rfl⟩
  | readReturn pc all => exact ⟨rfl, rfl, rfl⟩
  | _ => cases hl

/-- Every step is one of these.
Source: `journal.c`, `journal_write`, `journal_read`
Kind: L -/
theorem watchMoved_of_step {s s' : Watched n} {l : WatchLabel} (hs : s.step l = some s') :
    WatchMoved s l s' := by
  by_cases hl : l.ofReader = true
  · exact watchMoved_of_read hs hl
  · exact watchMoved_of_write hs (Bool.eq_false_iff.mpr hl)

/-! ## The invariant -/

/-- A first part of the completed records, whole.
Source: none: infrastructure
Kind: D -/
def Whole (completed : List (List UInt8)) (bytes : List UInt8) : Prop :=
  ∃ records, records <+: completed ∧ bytes = records.flatten

/-- What the active writer has done so far: it has loaded the size there is, and the bytes it has
copied are right behind the content.
Source: none: infrastructure
Kind: D -/
def AppendPc.Sound (region : Region n) (size : ℕ) : AppendPc → Prop
  | .loaded _ curSize => curSize = size
  | .copying data curSize copied => curSize = size ∧
      ∀ i ∈ copied, i < data.length ∧ region.toList[size + i]? = data[i]?
  | _ => True

/-- What the reader has seen so far: a first part of the completed records, of which `cur_size` is
the size, that extends all earlier results.
Source: `journal.c`, `journal_read`
Kind: D -/
structure Seen (completed results : List (List UInt8)) (curSize : ℕ) (seen : List UInt8) :
    Prop where
  whole : Whole completed seen
  extends_results : ∀ r ∈ results, r <+: seen
  size_eq : curSize = sizeofSizeT + seen.length

/-- The bytes the reader has copied are those of what it has seen.
Source: `journal.c`, `journal_read`
Kind: D -/
def ReadPc.Sound (completed results : List (List UInt8)) : ReadPc → Prop
  | .loaded _ _ curSize => ∃ seen, Seen completed results curSize seen
  | .copying buffer curSize copied => ∃ seen, Seen completed results curSize seen ∧
      ∀ i ∈ copied, buffer[i]? = seen[i]?
  | _ => True

/-- What every step keeps: the completed records lie in the journal, and both sides are sound.
Source: none: infrastructure
Kind: D -/
structure Watched.Inv (s : Watched n) : Prop where
  holds : Holds s.region s.completed.flatten
  writer : s.writer.Sound s.region (sizeofSizeT + s.completed.flatten.length)
  reader : s.reader.Sound s.completed s.results
  whole : ∀ r ∈ s.results, Whole s.completed r
  ordered : s.results.Pairwise (· <+: ·)

/-- The invariant holds for a new journal that nobody uses yet.
Source: `journal.c`, `journal_write`, `journal_read`
Kind: L -/
theorem Watched.Inv.init {region : Region n} (h : Holds region []) : (Watched.init region).Inv where
  holds := h
  writer := trivial
  reader := trivial
  whole := fun _ hr => absurd hr List.not_mem_nil
  ordered := List.Pairwise.nil

section monotone

variable {completed results : List (List UInt8)} {bytes : List UInt8}

/-- All completed records are a first part of themselves.
Source: none: infrastructure
Kind: L -/
theorem Whole.refl (completed : List (List UInt8)) : Whole completed completed.flatten :=
  ⟨completed, List.prefix_rfl, rfl⟩

/-- Whole records stay whole when another one is completed.
Source: none: infrastructure
Kind: L -/
theorem Whole.append (h : Whole completed bytes) (data : List UInt8) :
    Whole (completed ++ [data]) bytes := by
  obtain ⟨records, hpre, rfl⟩ := h
  exact ⟨records, hpre.trans (List.prefix_append _ _), rfl⟩

/-- Whole records are a first part of the bytes of all.
Source: none: infrastructure
Kind: L -/
theorem Whole.isPrefix (h : Whole completed bytes) : bytes <+: completed.flatten := by
  obtain ⟨records, ⟨rest, rfl⟩, rfl⟩ := h
  rw [List.flatten_append]
  exact List.prefix_append _ _

/-- The reader does not notice that another record is completed.
Source: `journal.c`, `journal_write`, `journal_read`
Kind: L -/
theorem ReadPc.Sound.append {pc : ReadPc} (h : pc.Sound completed results) (data : List UInt8) :
    pc.Sound (completed ++ [data]) results := by
  cases pc with
  | idle => trivial
  | begun buffer bufferSize => trivial
  | loaded buffer bufferSize curSize =>
      obtain ⟨seen, hseen⟩ := h
      exact ⟨seen, hseen.whole.append data, hseen.extends_results, hseen.size_eq⟩
  | copying buffer curSize copied =>
      obtain ⟨seen, hseen, hbytes⟩ := h
      exact ⟨seen, ⟨hseen.whole.append data, hseen.extends_results, hseen.size_eq⟩, hbytes⟩

end monotone

/-! ## The writer's steps -/

section steps

variable {s s' : Watched n}

/-- A step of the writer that completes nothing.
Source: `journal.c`, `journal_write`, `journal_read`
Kind: L -/
theorem Watched.Inv.write (h : s.Inv) {region : Region n} {pc : AppendPc}
    (hholds : Holds region s.completed.flatten)
    (hpc : pc.Sound region (sizeofSizeT + s.completed.flatten.length)) :
    ({ s with region := region, writer := pc } : Watched n).Inv :=
  ⟨hholds, hpc, h.reader, h.whole, h.ordered⟩

/-- A step of the writer that completes a record.
Source: `journal.c`, `journal_write`, `journal_read`
Kind: L -/
theorem Watched.Inv.complete (h : s.Inv) {region : Region n} {pc : AppendPc} {data : List UInt8}
    (hholds : Holds region (s.completed.flatten ++ data)) (hpc : pc = .idle ∨ pc = .stored) :
    ({ s with
      region := region, writer := pc, completed := s.completed ++ [data] } : Watched n).Inv := by
  refine ⟨?_, ?_, h.reader.append data, fun r hr => (h.whole r hr).append data, h.ordered⟩
  · rw [List.flatten_append, List.flatten_singleton]
    exact hholds
  · rcases hpc with rfl | rfl <;> trivial

/-- **A byte of the data.** It goes behind the content, and the bytes copied before stay.
Source: `journal.c`, `journal_write`, `journal_read`
Kind: P -/
theorem Watched.Inv.writeByte (h : s.Inv) {data : List UInt8} {curSize i : ℕ} {copied : Finset ℕ}
    (pc : s.writer = .copying data curSize copied) {byte : UInt8} (hbyte : data[i]? = some byte)
    {region : Region n} (hstore : storeVec s.region (curSize + i) [byte] = some region) :
    ({ s with
      region := region, writer := .copying data curSize (insert i copied) } : Watched n).Inv := by
  have hwriter := h.writer
  rw [pc] at hwriter
  obtain ⟨rfl, hcopied⟩ := hwriter
  obtain ⟨hle, hlist⟩ := storeVec_eq_some hstore
  rw [List.length_singleton] at hle
  have hlt : sizeofSizeT + s.completed.flatten.length + i < s.region.toList.length := by
    rw [List.Vector.toList_length]
    omega
  rw [splice_singleton hlt] at hlist
  refine h.write (h.holds.copy_behind (Nat.le_add_right _ _) hstore) ⟨rfl, ?_⟩
  intro k hk
  rw [hlist]
  by_cases heq : k = i
  · subst heq
    exact ⟨(List.getElem?_eq_some_iff.mp hbyte).1, by rw [List.getElem?_set_self hlt, hbyte]⟩
  · obtain ⟨hdata, hregion⟩ := hcopied k ((Finset.mem_insert.mp hk).resolve_left heq)
    exact ⟨hdata, by rw [List.getElem?_set_ne (by omega), hregion]⟩

/-- **The size.** When all bytes are copied, the record fits and the new size makes it part of the
content.
Source: `journal.c`, `journal_write`, `journal_read`
Kind: P -/
theorem Watched.Inv.writeStore (h : s.Inv) {data : List UInt8} {curSize : ℕ} {copied : Finset ℕ}
    (pc : s.writer = .copying data curSize copied) (hall : ∀ i < data.length, i ∈ copied)
    {region : Region n}
    (hstore : storeSize s.region (addSizeT curSize data.length) = some region) :
    ({ s with
      region := region, writer := .stored, completed := s.completed ++ [data] } :
        Watched n).Inv := by
  have hwriter := h.writer
  rw [pc] at hwriter
  obtain ⟨rfl, hcopied⟩ := hwriter
  have hsizeT := h.holds.size_t
  have hdata : slice s.region.toList (sizeofSizeT + s.completed.flatten.length) data.length =
      data := slice_eq_of_getElem? fun i hi => (hcopied i (hall i hi)).2
  have hroom : sizeofSizeT + s.completed.flatten.length + data.length ≤ n := by
    have hlength := congrArg List.length hdata
    have hcontent := h.holds.room
    rw [slice, List.length_take, List.length_drop, List.Vector.toList_length] at hlength
    omega
  have hadd : addSizeT (sizeofSizeT + s.completed.flatten.length) data.length =
      sizeofSizeT + s.completed.flatten.length + data.length := addSizeT_of_lt (by omega)
  obtain ⟨region', hstore', hholds⟩ := h.holds.storeSize hdata hroom
  rw [hadd, hstore', Option.some.injEq] at hstore
  subst hstore
  exact h.complete hholds (.inr rfl)

/-! ## The reader's steps -/

/-- A step of the reader that returns nothing.
Source: `journal.c`, `journal_write`, `journal_read`
Kind: L -/
theorem Watched.Inv.read (h : s.Inv) {pc : ReadPc} (hpc : pc.Sound s.completed s.results) :
    ({ s with reader := pc } : Watched n).Inv :=
  ⟨h.holds, h.writer, hpc, h.whole, h.ordered⟩

/-- **The load of the size** fixes what the reader sees: all that is complete now.
Source: `journal.c`, `journal_write`, `journal_read`
Kind: P -/
theorem Watched.Inv.readLoad (h : s.Inv) {buffer : List UInt8} {bufferSize curSize : ℕ}
    (hload : loadSize s.region = some curSize) :
    ({ s with reader := .loaded buffer bufferSize curSize } : Watched n).Inv := by
  rw [h.holds.loadSize, Option.some.injEq] at hload
  exact h.read ⟨s.completed.flatten, Whole.refl _, fun r hr => (h.whole r hr).isPrefix, hload.symm⟩

/-- The difference that `journal_read` computes is the length of what it has seen.
Source: `journal.c`, `journal_read`
Kind: L -/
theorem Seen.subSizeT_eq {completed results : List (List UInt8)} {curSize : ℕ} {seen : List UInt8}
    (h : Seen completed results curSize seen) {region : Region n}
    (hholds : Holds region completed.flatten) : subSizeT curSize sizeofSizeT = seen.length := by
  have hle := h.whole.isPrefix.length_le
  have hroom := hholds.room
  have hsizeT := hholds.size_t
  rw [h.size_eq, subSizeT_add_left _ (by omega)]

/-- **A byte of the content.** Whatever the writer is doing, it is a byte of what the reader has
seen.
Source: `journal.c`, `journal_write`, `journal_read`
Kind: P -/
theorem Watched.Inv.readByte (h : s.Inv) {buffer buffer' byte : List UInt8} {curSize i : ℕ}
    {copied : Finset ℕ} (pc : s.reader = .copying buffer curSize copied)
    (hi : i < subSizeT curSize sizeofSizeT)
    (hload : load s.region.toList (sizeofSizeT + i) 1 = some byte)
    (hstore : store buffer i byte = some buffer') :
    ({ s with reader := .copying buffer' curSize (insert i copied) } : Watched n).Inv := by
  have hreader := h.reader
  rw [pc] at hreader
  obtain ⟨seen, hseen, hbytes⟩ := hreader
  rw [hseen.subSizeT_eq h.holds] at hi
  refine h.read ⟨seen, hseen, ?_⟩
  -- the byte read is the one the content has at this place
  have hbyte : ∃ b, byte = [b] ∧ seen[i]? = some b := by
    obtain ⟨rest, hrest⟩ := hseen.whole.isPrefix
    have hcontent : i < s.completed.flatten.length := hi.trans_le hseen.whole.isPrefix.length_le
    have hregion := getElem?_of_slice_eq h.holds.bytes hcontent
    rw [← hrest, List.getElem?_append_left hi] at hregion
    unfold load at hload
    split_ifs at hload with hle
    rw [Option.some.injEq] at hload
    have hlt : sizeofSizeT + i < s.region.toList.length := by omega
    refine ⟨s.region.toList[sizeofSizeT + i], ?_, ?_⟩
    · rw [← hload, slice, List.drop_eq_getElem_cons hlt]
      rfl
    · rw [← hregion, List.getElem?_eq_getElem hlt]
  obtain ⟨b, rfl, hb⟩ := hbyte
  have hlt : i < buffer.length := by
    have := (length_of_store hstore).1
    rw [List.length_singleton] at this
    omega
  rw [store_of_le (by rw [List.length_singleton]; omega), splice_singleton hlt,
    Option.some.injEq] at hstore
  subst hstore
  intro k hk
  by_cases heq : k = i
  · rw [heq, List.getElem?_set_self hlt, hb]
  · rw [List.getElem?_set_ne (Ne.symm heq), hbytes k ((Finset.mem_insert.mp hk).resolve_left heq)]

/-- **The return of a read.**
Source: `journal.c`, `journal_write`, `journal_read`
Kind: P -/
theorem Watched.Inv.readReturn (h : s.Inv) {buffer : List UInt8} {curSize : ℕ}
    {copied : Finset ℕ} (pc : s.reader = .copying buffer curSize copied)
    (hall : ∀ i < subSizeT curSize sizeofSizeT, i ∈ copied) :
    ({ s with
      reader := .idle
      results := s.results ++ [buffer.take (subSizeT curSize sizeofSizeT)] } :
        Watched n).Inv := by
  have hreader := h.reader
  rw [pc] at hreader
  obtain ⟨seen, hseen, hbytes⟩ := hreader
  have hlength := hseen.subSizeT_eq h.holds
  rw [hlength] at hall ⊢
  have htake : buffer.take seen.length = seen := by
    have hslice : slice buffer 0 seen.length = seen :=
      slice_eq_of_getElem? fun i hi => by rw [Nat.zero_add, hbytes i (hall i hi)]
    rwa [slice, List.drop_zero] at hslice
  rw [htake]
  refine ⟨h.holds, h.writer, trivial, ?_, ?_⟩
  · intro r hr
    rcases List.mem_append.mp hr with hold | hnew
    · exact h.whole r hold
    · rw [List.mem_singleton.mp hnew]
      exact hseen.whole
  · rw [List.pairwise_append]
    refine ⟨h.ordered, List.pairwise_singleton _ _, ?_⟩
    intro r hr r' hr'
    rw [List.mem_singleton.mp hr']
    exact hseen.extends_results r hr

/-! ## Every run -/

/-- **Every step keeps the invariant.**
Source: `journal.c`, `journal_write`, `journal_read`
Kind: P -/
theorem Watched.Inv.moved (h : s.Inv) {l : WatchLabel} (hm : WatchMoved s l s') : s'.Inv := by
  cases hm with
  | writeEmpty pc empty =>
      -- an empty record is complete at once
      refine h.complete ?_ (show s.writer = .idle ∨ s.writer = .stored from .inl pc)
      rw [empty, List.append_nil]
      exact h.holds
  | writeBegin pc nonempty => exact h.write h.holds trivial
  | writeLoad pc load =>
      rw [h.holds.loadSize, Option.some.injEq] at load
      exact h.write h.holds load.symm
  | writeRefused pc full => exact h.write h.holds trivial
  | writeCheck pc fits =>
      have hwriter := h.writer
      rw [pc] at hwriter
      exact h.write h.holds ⟨hwriter, fun i hi => absurd hi (Finset.notMem_empty i)⟩
  | writeByte pc read store => exact h.writeByte pc read store
  | writeStore pc all store => exact h.writeStore pc all store
  | writeReturn pc => exact h.write h.holds trivial
  | kill busy => exact h.write h.holds trivial
  | readBegin pc => exact h.read trivial
  | readLoad pc load => exact h.readLoad load
  | readRefused pc small => exact h.read trivial
  | readCheck pc fits =>
      have hreader := h.reader
      rw [pc] at hreader
      obtain ⟨seen, hseen⟩ := hreader
      exact h.read ⟨seen, hseen, fun i hi => absurd hi (Finset.notMem_empty i)⟩
  | readByte pc inside load store => exact h.readByte pc inside load store
  | readReturn pc all => exact h.readReturn pc all

end steps

/-- **A reader sees whole records only.** For every sequence of records, every interleaving of the
reader's steps with those of at most one active writer, and writers killed anywhere: a read that
succeeds returns the concatenation of a first part of the completed records, and the result of an
earlier read is a prefix of that of a later one.
Source: `journal.c`, `journal_write`, `journal_read`
Kind: P
Hyps: `maxSize` is a `size_t` -/
theorem reads_whole_records {maxSize : ℕ} (h64 : maxSize < 2 ^ 64) {region : Region maxSize}
    (hcreate : journalCreate .allOk maxSize = some ⟨maxSize, region⟩) {ls : List WatchLabel}
    {s : Watched maxSize} (h : Run Watched.step (fun _ _ => True) (Watched.init region) ls s) :
    (∀ r ∈ s.results, ∃ records, records <+: s.completed ∧ r = records.flatten) ∧
      s.results.Pairwise (· <+: ·) := by
  have hinit : (Watched.init region).Inv := Watched.Inv.init (holds_of_journalCreate h64 hcreate)
  have hinv : s.Inv := h.invariant hinit fun _ _ _ hinv _ hs =>
    hinv.moved (watchMoved_of_step hs)
  exact ⟨hinv.whole, hinv.ordered⟩

/-- A read beside two writers of a journal of ten bytes: the first is killed after a part of its
copy, the second stores its size while the reader is at work.
Source: `journal.c`, `journal_write`, `journal_read`
Kind: C -/
theorem reads_whole_records_beside_writers :
    ∃ s, Run Watched.step (fun _ _ => True) (Watched.init tenBytes)
        [.writeBegin [1, 2], .writeLoad, .writeCheck, .writeByte 1, .kill,
          .writeBegin [3], .writeLoad, .writeCheck, .writeByte 0,
          .readBegin [0, 0] 10, .readLoad, .writeStore, .readCheck, .readReturn,
          .readBegin [0, 0] 10, .readLoad, .readCheck, .readByte 0, .readReturn] s ∧
      s.completed = [[3]] ∧ s.results = [[], [3]] ∧ s.results.Pairwise (· <+: ·) := by
  obtain ⟨s, hrun, hs⟩ := Run.exists_of_exec
    (show (exec Watched.step (fun _ _ => True) (Watched.init tenBytes)
        [.writeBegin [1, 2], .writeLoad, .writeCheck, .writeByte 1, .kill,
          .writeBegin [3], .writeLoad, .writeCheck, .writeByte 0,
          .readBegin [0, 0] 10, .readLoad, .writeStore, .readCheck, .readReturn,
          .readBegin [0, 0] 10, .readLoad, .readCheck, .readByte 0, .readReturn]).map
      (fun s => decide (s.completed = [[3]] ∧ s.results = [[], [3]])) = some true
        by decide +kernel)
  obtain ⟨hcompleted, hresults⟩ := of_decide_eq_true hs
  exact ⟨s, hrun, hcompleted, hresults, (reads_whole_records (by decide) rfl hrun).2⟩

/-! ## The steps in a row are the calls -/

section calls

variable {s : Watched n}

/-- A write undisturbed.
Source: `journal.c`, `journal_write`
Kind: D -/
def writeLabels (data : List UInt8) : List WatchLabel :=
  [.writeBegin data, .writeLoad, .writeCheck] ++ (List.range data.length).map .writeByte ++
    [.writeStore, .writeReturn]

/-- A read undisturbed, of a content of this length.
Source: `journal.c`, `journal_read`
Kind: D -/
def readLabels (buffer : List UInt8) (bufferSize length : ℕ) : List WatchLabel :=
  [.readBegin buffer bufferSize, .readLoad, .readCheck] ++ (List.range length).map .readByte ++
    [.readReturn]

/-- The first `k` bytes of the data, one by one.
Source: `journal.c`, `journal_write`, `journal_read`
Kind: L -/
theorem exec_writeByte {data : List UInt8} {curSize k : ℕ}
    (hpc : s.writer = .copying data curSize ∅)
    (hk : k ≤ data.length) {region : Region n}
    (hcopy : storeVec s.region curSize (data.take k) = some region) :
    exec Watched.step (fun _ _ => True) s ((List.range k).map .writeByte) =
      some { s with region := region, writer := .copying data curSize (Finset.range k) } := by
  induction k generalizing region with
  | zero =>
      obtain ⟨-, hlist⟩ := storeVec_eq_some hcopy
      have hregion : region = s.region := by
        apply List.Vector.toList_injective
        rw [hlist]
        simp [splice]
      rw [hregion, Finset.range_zero, ← hpc]
      rfl
  | succ k ih =>
      obtain ⟨hle, -⟩ := storeVec_eq_some hcopy
      rw [List.length_take, Nat.min_eq_left hk] at hle
      have hlength : (data.take k).length = k := by
        rw [List.length_take, Nat.min_eq_left (by omega)]
      have hroom : curSize + (data.take k).length ≤ n := by omega
      obtain ⟨before, hbefore, -⟩ := storeVec_of_le (v := s.region) hroom
      have hbyte : data[k]? = some data[k] := List.getElem?_eq_getElem hk
      have hnext := storeVec_next hbefore (by rw [hlength]; omega) data[k]
      rw [List.take_append_getElem hk, hcopy, hlength] at hnext
      rw [List.range_succ, List.map_append, exec_append (ih (by omega) hbefore)]
      simp [exec, Watched.step, hbyte, hnext, Finset.range_add_one]

/-- **An undisturbed write is `journalWrite`.**
Source: `journal.c`, `journal_write`, `journal_read`
Kind: P -/
theorem write_in_a_row (hidle : s.writer = .idle) {data : List UInt8} (hne : data ≠ [])
    {region : Region n}
    (h : journalWrite .allOk ⟨n, s.region⟩ data = some (.success, ⟨n, region⟩)) :
    exec Watched.step (fun _ _ => True) s (writeLabels data) =
      some { s with region := region, completed := s.completed ++ [data] } := by
  have hpos : data.length ≠ 0 := fun hzero => hne (List.length_eq_zero_iff.mp hzero)
  simp only [journalWrite, hpos, if_false, JournalCalls.allOk_lock, JournalCalls.allOk_unlock,
    Bool.not_true, Bool.false_eq_true] at h
  obtain ⟨curSize, hload, h⟩ := Option.bind_eq_some_iff.mp h
  split_ifs at h with hfull
  · simp at h
  obtain ⟨copied, hcopy, h⟩ := Option.bind_eq_some_iff.mp h
  obtain ⟨stored, hstore, h⟩ := Option.bind_eq_some_iff.mp h
  simp only [Option.some.injEq, Prod.mk.injEq, Journal.mk.injEq, heq_eq_eq, true_and] at h
  subst h
  have hbegin : exec Watched.step (fun _ _ => True) s [.writeBegin data, .writeLoad, .writeCheck] =
      some { s with writer := .copying data curSize ∅ } := by
    simp [exec, Watched.step, hidle, hpos, hload, hfull]
  have hbytes := exec_writeByte (s := { s with writer := .copying data curSize ∅ }) rfl le_rfl
    (by rw [List.take_length]; exact hcopy)
  rw [writeLabels, List.append_assoc, exec_append hbegin, exec_append hbytes]
  simp [exec, Watched.step, hstore, hidle]

/-- The first `k` bytes of the content, one by one.
Source: `journal.c`, `journal_write`, `journal_read`
Kind: L -/
theorem exec_readByte {buffer buffer' content : List UInt8} {curSize k : ℕ}
    (hpc : s.reader = .copying buffer curSize ∅)
    (hload : load s.region.toList sizeofSizeT (subSizeT curSize sizeofSizeT) = some content)
    (hk : k ≤ content.length) (hcopy : store buffer 0 (content.take k) = some buffer') :
    exec Watched.step (fun _ _ => True) s ((List.range k).map .readByte) =
      some { s with reader := .copying buffer' curSize (Finset.range k) } := by
  induction k generalizing buffer' with
  | zero =>
      have hbuffer : buffer' = buffer := by
        rw [List.take_zero, store_of_le (Nat.zero_le _), splice_zero, Option.some.injEq] at hcopy
        exact hcopy.symm
      rw [hbuffer, Finset.range_zero, ← hpc]
      rfl
  | succ k ih =>
      obtain ⟨hle, -⟩ := length_of_store hcopy
      rw [List.length_take, Nat.min_eq_left hk] at hle
      obtain ⟨hroom, hlength⟩ := length_of_load hload
      have hlt : k < content.length := hk
      have htake : (content.take k).length = k := by
        rw [List.length_take, Nat.min_eq_left (by omega)]
      have hfits : 0 + (content.take k).length ≤ buffer.length := by omega
      have hbefore := store_of_le hfits
      have hbyte : load s.region.toList (sizeofSizeT + k) 1 = some [content[k]] := by
        rw [load_of_le hroom, Option.some.injEq] at hload
        have hcell : slice content k 1 = [content[k]] := by
          rw [slice, List.drop_eq_getElem_cons hk]
          rfl
        rw [load_of_le (by omega), ← hcell, ← hload, slice_slice (by omega)]
      have hnext := store_next hbefore (by rw [htake]; omega) content[k]
      rw [List.take_append_getElem hk, hcopy, htake, Nat.zero_add] at hnext
      have hsize : k < subSizeT curSize sizeofSizeT := hlength ▸ hlt
      rw [List.range_succ, List.map_append, exec_append (ih (by omega) hbefore)]
      simp [exec, Watched.step, hsize, hbyte, hnext, Finset.range_add_one]

/-- **An undisturbed read is `journalRead`.**
Source: `journal.c`, `journal_write`, `journal_read`
Kind: P -/
theorem read_in_a_row (hidle : s.reader = .idle) {buffer buffer' : List UInt8}
    {bufferSize length : ℕ}
    (h : journalRead .allOk ⟨n, s.region⟩ buffer bufferSize = some (.success, buffer', length)) :
    exec Watched.step (fun _ _ => True) s (readLabels buffer bufferSize length) =
      some { s with results := s.results ++ [buffer'.take length] } := by
  simp only [journalRead, JournalCalls.allOk_lock, JournalCalls.allOk_unlock, Bool.not_true,
    Bool.false_eq_true, if_false] at h
  obtain ⟨curSize, hsize, h⟩ := Option.bind_eq_some_iff.mp h
  split_ifs at h with hsmall
  · simp at h
  obtain ⟨content, hload, h⟩ := Option.bind_eq_some_iff.mp h
  obtain ⟨copied, hstore, h⟩ := Option.bind_eq_some_iff.mp h
  simp only [Option.some.injEq, Prod.mk.injEq, true_and] at h
  obtain ⟨rfl, rfl⟩ := h
  have hlength := (length_of_load hload).2
  have hbegin : exec Watched.step (fun _ _ => True) s
      [.readBegin buffer bufferSize, .readLoad, .readCheck] =
      some { s with reader := .copying buffer curSize ∅ } := by
    simp [exec, Watched.step, hidle, hsize, hsmall]
  have hbytes := exec_readByte (s := { s with reader := .copying buffer curSize ∅ }) rfl hload
    le_rfl (by rw [List.take_length]; exact hstore)
  rw [readLabels, ← hlength, List.append_assoc, exec_append hbegin, exec_append hbytes]
  simp [exec, Watched.step, hlength, hidle]

end calls

end CpuMonitor.Server
