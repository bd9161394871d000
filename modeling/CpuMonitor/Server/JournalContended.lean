import CpuMonitor.Server.JournalReader

/-!
# The journal with several writers at once

The workers are processes of their own, and after the forks each of them locks a mutex that nobody
else uses. So any number of them can be in `journal_write` at the same time, while the parent is in
`journal_read`.

* **The system** `Contended ι n`: one region, for each worker the place in its `journal_write`, and
  the parent's `journal_read`. A party moves as in `Watched`, where there is one writer: a worker
  sees the system as if it were that writer (`Contended.view`). `ContendedMoved` says once what a
  step can do.
* **Sizes** `Contended.Sized`: however the writes overlap, the size in the journal and every size
  that a party has loaded is one the region has room for. Records can be lost by an overlap
  (`record_lost_by_overlap`), but no copy leaves the region, and none starts inside the size word.
* **One at a time** `Contended.Inv`: as long as a worker only moves while the others are between two
  calls, the journal is that of `Watched`.
-/

namespace CpuMonitor.Server

open CpuMonitor.Lib

/-! ## The system -/

/-- The region, the place of each worker in `journal_write`, the reader, and the history: the
records whose size has been stored and the results of the reads that returned
`JOURNAL_STATUS_SUCCESS`.
Source: `journal.c`, `journal_write`, `journal_read`; `server.c`, `main` (the forks)
Kind: D -/
structure Contended (ι : Type) (n : ℕ) where
  region : Region n
  writer : ι → AppendPc
  reader : ReadPc
  completed : List (List UInt8)
  results : List (List UInt8)

/-- Who takes which step.
Source: `journal.c`, `journal_write`, `journal_read`
Kind: D -/
inductive ContendedLabel (ι : Type)
  /-- A step of the `journal_write` of a worker. -/
  | write (i : ι) (label : WatchLabel)
  /-- A step of `journal_read`. -/
  | read (label : WatchLabel)
  deriving DecidableEq

section system

variable {ι : Type} {n : ℕ}

/-- A new journal.
Source: `journal.c`, `journal_create`
Kind: D -/
def Contended.init (region : Region n) : Contended ι n := ⟨region, fun _ => .idle, .idle, [], []⟩

/-- The system as a worker at `pc` sees it.
Source: `journal.c`, `journal_write`, `journal_read`
Kind: D -/
def Contended.view (s : Contended ι n) (pc : AppendPc) : Watched n :=
  ⟨s.region, pc, s.reader, s.completed, s.results⟩

/-- What a step of the reader changes.
Source: `journal.c`, `journal_write`, `journal_read`
Kind: D -/
def Contended.reads (s : Contended ι n) (w : Watched n) : Contended ι n :=
  { s with reader := w.reader, results := w.results }

variable [DecidableEq ι]

/-- What a step of a worker changes.
Source: `journal.c`, `journal_write`, `journal_read`
Kind: D -/
def Contended.writes (s : Contended ι n) (i : ι) (w : Watched n) : Contended ι n :=
  { s with
    region := w.region
    writer := Function.update s.writer i w.writer
    completed := w.completed }

/-- Where the worker is afterwards.
Source: none: infrastructure
Kind: L -/
@[simp] theorem Contended.writer_writes_self (s : Contended ι n) (i : ι) (w : Watched n) :
    (s.writes i w).writer i = w.writer :=
  Function.update_self ..

/-- The other workers stay where they are.
Source: none: infrastructure
Kind: L -/
theorem Contended.writer_writes_of_ne (s : Contended ι n) {i k : ι} (hk : k ≠ i)
    (w : Watched n) : (s.writes i w).writer k = s.writer k :=
  Function.update_of_ne hk ..

/-- One step; `none` if the party is elsewhere, or would copy outside the region or the buffer.
Source: `journal.c`, `journal_write`, `journal_read`
Kind: D
Fidelity: exact (as `Watched.step`; every worker locks a mutex of its own, so that no lock waits) -/
def Contended.step (s : Contended ι n) : ContendedLabel ι → Option (Contended ι n)
  | .write i label =>
      if label.ofReader then none
      else ((s.view (s.writer i)).step label).map (s.writes i)
  | .read label =>
      if label.ofReader then ((s.view .idle).step label).map s.reads else none

/-- What each step can do.
Source: `journal.c`, `journal_write`, `journal_read`
Kind: D -/
inductive ContendedMoved (s : Contended ι n) : ContendedLabel ι → Contended ι n → Prop
  | write {i : ι} {label : WatchLabel} {w : Watched n} (writer : label.ofReader = false)
      (moved : WatchMoved (s.view (s.writer i)) label w) :
      ContendedMoved s (.write i label) (s.writes i w)
  | read {label : WatchLabel} {w : Watched n} (reader : label.ofReader = true)
      (moved : WatchMoved (s.view .idle) label w) : ContendedMoved s (.read label) (s.reads w)

/-- A step does one of these things.
Source: `journal.c`, `journal_write`, `journal_read`
Kind: L -/
theorem contendedMoved_of_step {s s' : Contended ι n} {l : ContendedLabel ι}
    (hs : s.step l = some s') : ContendedMoved s l s' := by
  cases l with
  | write i label =>
      simp only [Contended.step] at hs
      split_ifs at hs with hlabel
      obtain ⟨w, hstep, rfl⟩ := Option.map_eq_some_iff.mp hs
      exact .write (Bool.eq_false_iff.mpr hlabel) (watchMoved_of_step hstep)
  | read label =>
      simp only [Contended.step] at hs
      split_ifs at hs with hlabel
      obtain ⟨w, hstep, rfl⟩ := Option.map_eq_some_iff.mp hs
      exact .read hlabel (watchMoved_of_step hstep)

end system

/-! ## Sizes -/

/-- A size that counts the size word and that the region has room for.
Source: none: infrastructure
Kind: D -/
structure SizeIn (n size : ℕ) : Prop where
  word : sizeofSizeT ≤ size
  room : size ≤ n

/-- The size a worker has loaded, and where it has copied to.
Source: none: infrastructure
Kind: D -/
def AppendPc.Sized (n : ℕ) : AppendPc → Prop
  | .loaded _ curSize => SizeIn n curSize
  | .copying _ curSize copied => SizeIn n curSize ∧ ∀ i ∈ copied, curSize + i < n
  | .idle | .begun _ | .stored => True

/-- The size the reader has loaded.
Source: none: infrastructure
Kind: D -/
def ReadPc.Sized (n : ℕ) : ReadPc → Prop
  | .loaded _ _ curSize | .copying _ curSize _ => SizeIn n curSize
  | .idle | .begun _ _ => True

/-- Every size in the system is in range.
Source: none: infrastructure
Kind: D -/
structure Watched.Sized {n : ℕ} (s : Watched n) : Prop where
  size_t : n < 2 ^ 64
  word : ∃ size, loadSize s.region = some size ∧ SizeIn n size
  writer : s.writer.Sized n
  reader : s.reader.Sized n

section sizes

variable {n : ℕ}

/-- A copy behind the size word leaves it alone.
Source: `journal.c`, `journal_write`
Kind: L -/
theorem loadSize_of_storeVec {region region' : Region n} {off : ℕ} {data : List UInt8}
    (hoff : sizeofSizeT ≤ off) (hstore : storeVec region off data = some region') :
    loadSize region' = loadSize region := by
  obtain ⟨hle, hlist⟩ := storeVec_eq_some hstore
  have hlength : off ≤ region.toList.length := by
    rw [List.Vector.toList_length]
    omega
  have hword : ∀ r : Region n, 0 + sizeofSizeT ≤ r.toList.length := by
    intro r
    rw [List.Vector.toList_length]
    omega
  rw [loadSize, loadSize, load_of_le (hword region'), load_of_le (hword region), hlist,
    slice_splice_before (by omega) hlength]

/-- The size that is stored is the size that is loaded.
Source: `journal.c`, `journal_write`
Kind: L -/
theorem loadSize_of_storeSize {region region' : Region n} {size : ℕ} (h64 : size < 2 ^ 64)
    (hstore : storeSize region size = some region') : loadSize region' = some size := by
  obtain ⟨hle, hlist⟩ := storeVec_eq_some hstore
  rw [length_leBytes] at hle
  have hword : 0 + sizeofSizeT ≤ region'.toList.length := by
    rw [List.Vector.toList_length]
    exact hle
  rw [loadSize, load_of_le hword, hlist, slice_splice_word, Option.map_some,
    leValue_leBytes_of_lt (h64.trans_le (by norm_num [sizeofSizeT]))]

variable {s s' : Watched n}

/-- A byte of a record goes behind the size word, whatever other workers have done to the journal.
Source: `journal.c`, `journal_write`, `journal_read`
Kind: L -/
theorem Watched.Sized.writeByte (h : s.Sized) {data : List UInt8} {curSize i : ℕ}
    {copied : Finset ℕ} (pc : s.writer = .copying data curSize copied) {byte : UInt8}
    {region : Region n} (hstore : storeVec s.region (curSize + i) [byte] = some region) :
    ({ s with
      region := region, writer := .copying data curSize (insert i copied) } : Watched n).Sized := by
  have hwriter := h.writer
  rw [pc] at hwriter
  obtain ⟨hsize, hcopied⟩ := hwriter
  have hword := loadSize_of_storeVec (hsize.word.trans (Nat.le_add_right _ i)) hstore
  obtain ⟨hle, -⟩ := storeVec_eq_some hstore
  refine ⟨h.size_t, ?_, ⟨hsize, ?_⟩, h.reader⟩
  · show ∃ size, loadSize region = some size ∧ SizeIn n size
    rw [hword]
    exact h.word
  · intro k hk
    rcases Finset.mem_insert.mp hk with rfl | hold
    · exact hle
    · exact hcopied k hold

/-- **The new size is in range.** It is stored only after all bytes are copied, and each of them has
found its place in the region; so the addition that the check relies on has not wrapped around.
Source: `journal.c`, `journal_write`
Kind: P -/
theorem Watched.Sized.writeStore (h : s.Sized) {data : List UInt8} {curSize : ℕ}
    {copied : Finset ℕ} (pc : s.writer = .copying data curSize copied)
    (hall : ∀ i < data.length, i ∈ copied) {region : Region n} {completed : List (List UInt8)}
    (hstore : storeSize s.region (addSizeT curSize data.length) = some region) :
    ({ s with
      region := region, writer := .stored, completed := completed } : Watched n).Sized := by
  have hwriter := h.writer
  rw [pc] at hwriter
  obtain ⟨hsize, hcopied⟩ := hwriter
  have hword := hsize.word
  have hroom : curSize + data.length ≤ n := by
    by_cases hzero : data.length = 0
    · rw [hzero]
      exact hsize.room
    · have hlast := hcopied (data.length - 1) (hall _ (by omega))
      omega
  have h64 : curSize + data.length < 2 ^ 64 := hroom.trans_lt h.size_t
  rw [addSizeT_of_lt h64] at hstore
  exact ⟨h.size_t, ⟨_, loadSize_of_storeSize h64 hstore, by omega, hroom⟩, trivial, h.reader⟩

/-- **Every step keeps the sizes in range.**
Source: `journal.c`, `journal_write`, `journal_read`
Kind: P -/
theorem Watched.Sized.moved (h : s.Sized) {l : WatchLabel} (hm : WatchMoved s l s') :
    s'.Sized := by
  have hloaded : ∀ {curSize : ℕ}, loadSize s.region = some curSize → SizeIn n curSize := by
    intro curSize hload
    obtain ⟨size, hsize, hin⟩ := h.word
    rw [hsize, Option.some.injEq] at hload
    exact hload ▸ hin
  cases hm with
  | writeEmpty pc empty => exact ⟨h.size_t, h.word, h.writer, h.reader⟩
  | writeBegin pc nonempty => exact ⟨h.size_t, h.word, trivial, h.reader⟩
  | writeLoad pc load => exact ⟨h.size_t, h.word, hloaded load, h.reader⟩
  | writeRefused pc full => exact ⟨h.size_t, h.word, trivial, h.reader⟩
  | writeCheck pc fits =>
      have hwriter := h.writer
      rw [pc] at hwriter
      exact ⟨h.size_t, h.word, ⟨hwriter, fun i hi => absurd hi (Finset.notMem_empty i)⟩, h.reader⟩
  | writeByte pc read store => exact h.writeByte pc store
  | writeStore pc all store => exact h.writeStore pc all store
  | writeReturn pc => exact ⟨h.size_t, h.word, trivial, h.reader⟩
  | kill busy => exact ⟨h.size_t, h.word, trivial, h.reader⟩
  | readBegin pc => exact ⟨h.size_t, h.word, h.writer, trivial⟩
  | readLoad pc load => exact ⟨h.size_t, h.word, h.writer, hloaded load⟩
  | readRefused pc small => exact ⟨h.size_t, h.word, h.writer, trivial⟩
  | readCheck pc fits =>
      have hreader := h.reader
      rw [pc] at hreader
      exact ⟨h.size_t, h.word, h.writer, hreader⟩
  | readByte pc inside load store =>
      have hreader := h.reader
      rw [pc] at hreader
      exact ⟨h.size_t, h.word, h.writer, hreader⟩
  | readReturn pc all => exact ⟨h.size_t, h.word, h.writer, trivial⟩

/-- The bytes behind the size word.
Source: none: infrastructure
Kind: L -/
theorem SizeIn.subSizeT_eq {size : ℕ} (h : SizeIn n size) (h64 : n < 2 ^ 64) :
    subSizeT size sizeofSizeT = size - sizeofSizeT := by
  have hword := h.word
  have hroom := h.room
  have hsum : size = sizeofSizeT + (size - sizeofSizeT) := by omega
  rw [hsum, subSizeT_add_left _ (by omega), Nat.add_sub_cancel_left]

/-- A byte of the content can always be copied: it is in the region and has room in the buffer.
Source: `journal.c`, `journal_read`
Kind: L -/
theorem Watched.Sized.readByte (h : s.Sized) {buffer : List UInt8} {curSize i : ℕ}
    {copied : Finset ℕ} (pc : s.reader = .copying buffer curSize copied)
    (hbuffer : n ≤ buffer.length) (hi : i < subSizeT curSize sizeofSizeT) :
    ∃ s', s.step (.readByte i) = some s' := by
  have hreader := h.reader
  rw [pc] at hreader
  have hsize : SizeIn n curSize := hreader
  have hword := hsize.word
  have hroom := hsize.room
  have hbytes := hsize.subSizeT_eq h.size_t
  have hregion : sizeofSizeT + i + 1 ≤ s.region.toList.length := by
    rw [List.Vector.toList_length]
    omega
  have hstore : i + (slice s.region.toList (sizeofSizeT + i) 1).length ≤ buffer.length := by
    rw [length_slice hregion]
    omega
  simp only [Watched.step, pc, if_pos hi, load_of_le hregion, store_of_le hstore,
    Option.bind_eq_bind, Option.bind_some]
  exact ⟨_, rfl⟩

/-- **A read always has a next step**: no load, no check and no copy of `journal_read` fails, with a
buffer as large as the region.
Source: `journal.c`, `journal_read`
Kind: P -/
theorem Watched.Sized.read_goes_on (h : s.Sized) (hbusy : s.reader ≠ .idle)
    (hbuffer : ∀ buffer curSize copied, s.reader = .copying buffer curSize copied →
      n ≤ buffer.length) :
    ∃ label s', (∀ buffer size, label ≠ .readBegin buffer size) ∧ label.ofReader = true ∧
      s.step label = some s' := by
  cases pc : s.reader with
  | idle => exact absurd pc hbusy
  | begun buffer size =>
      obtain ⟨word, hload, -⟩ := h.word
      exact ⟨.readLoad, _, by simp, rfl, by simp only [Watched.step, pc, hload]; rfl⟩
  | loaded buffer size curSize =>
      refine ⟨.readCheck, ?_⟩
      by_cases hsmall : size < curSize
      · exact ⟨_, by simp, rfl, by simp only [Watched.step, pc, if_pos hsmall]; rfl⟩
      · exact ⟨_, by simp, rfl, by simp only [Watched.step, pc, if_neg hsmall]; rfl⟩
  | copying buffer curSize copied =>
      by_cases hall : ∀ i < subSizeT curSize sizeofSizeT, i ∈ copied
      · exact ⟨.readReturn, _, by simp, rfl, by simp only [Watched.step, pc, if_pos hall]; rfl⟩
      · simp only [not_forall] at hall
        obtain ⟨i, hi, -⟩ := hall
        obtain ⟨s', hs⟩ := h.readByte pc (hbuffer buffer curSize copied pc) hi
        exact ⟨.readByte i, s', by simp, rfl, hs⟩

end sizes

section contended

variable {ι : Type} {n : ℕ}

/-- Every size in the system is in range.
Source: none: infrastructure
Kind: D -/
structure Contended.Sized (s : Contended ι n) : Prop where
  quiet : (s.view .idle).Sized
  writer : ∀ i, (s.writer i).Sized n

/-- The sizes of a new journal.
Source: `journal.c`, `journal_create`
Kind: L -/
theorem Contended.Sized.init {region : Region n} (h : Holds region []) :
    (Contended.init region : Contended ι n).Sized where
  quiet := ⟨h.size_t, ⟨_, h.loadSize, Nat.le_add_right _ _, h.room⟩, trivial, trivial⟩
  writer := fun _ => trivial

/-- The reader leaves `journal_read` without a result.
Source: `journal.c`, `journal_write`, `journal_read`
Kind: L -/
theorem Contended.Sized.leave {s : Contended ι n} (h : s.Sized) :
    ({ s with reader := .idle } : Contended ι n).Sized :=
  ⟨⟨h.quiet.size_t, h.quiet.word, trivial, trivial⟩, h.writer⟩

/-! ## One at a time -/

/-- The journal without its writer.
Source: none: infrastructure
Kind: L -/
theorem Watched.Inv.quiet {s : Watched n} (h : s.Inv) :
    ({ s with writer := .idle } : Watched n).Inv :=
  h.write h.holds trivial

/-- What every step keeps as long as no two writes overlap: the journal is that of a single writer,
and whoever is in `journal_write` is sound.
Source: none: infrastructure
Kind: D -/
structure Contended.Inv (s : Contended ι n) : Prop where
  quiet : (s.view .idle).Inv
  writer : ∀ i, (s.writer i).Sound s.region (sizeofSizeT + s.completed.flatten.length)

/-- A worker moves only while the others are between two calls.
Source: none: infrastructure
Kind: D -/
def Contended.Undisturbed (s : Contended ι n) : ContendedLabel ι → Prop
  | .write i _ => ∀ k, k ≠ i → s.writer k = .idle
  | .read _ => True

/-- With finitely many writers it can be checked that no other one is writing.
Source: none: infrastructure
Kind: D -/
instance [Fintype ι] [DecidableEq ι] (s : Contended ι n) : DecidablePred s.Undisturbed
  | .write i _ => inferInstanceAs (Decidable (∀ k, k ≠ i → s.writer k = .idle))
  | .read _ => inferInstanceAs (Decidable True)

/-- A new journal.
Source: `journal.c`, `journal_create`
Kind: L -/
theorem Contended.Inv.init {region : Region n} (h : Holds region []) :
    (Contended.init region : Contended ι n).Inv where
  quiet := Watched.Inv.init h
  writer := fun _ => trivial

/-- The reader leaves `journal_read` without a result.
Source: `journal.c`, `journal_write`, `journal_read`
Kind: L -/
theorem Contended.Inv.leave {s : Contended ι n} (h : s.Inv) :
    ({ s with reader := .idle } : Contended ι n).Inv :=
  ⟨h.quiet.read trivial, h.writer⟩

variable [DecidableEq ι] {s s' : Contended ι n} {l : ContendedLabel ι}

/-- **Every step keeps the sizes in range**, however the writes overlap.
Source: `journal.c`, `journal_write`, `journal_read`
Kind: P -/
theorem Contended.Sized.moved (h : s.Sized) (hm : ContendedMoved s l s') : s'.Sized := by
  cases hm with
  | @write i label w writer moved =>
      have hview : (s.view (s.writer i)).Sized :=
        ⟨h.quiet.size_t, h.quiet.word, h.writer i, h.quiet.reader⟩
      have hmoved := hview.moved moved
      refine ⟨⟨hmoved.size_t, hmoved.word, trivial, h.quiet.reader⟩, fun k => ?_⟩
      by_cases hk : k = i
      · subst hk
        rw [Contended.writer_writes_self]
        exact hmoved.writer
      · rw [Contended.writer_writes_of_ne s hk]
        exact h.writer k
  | @read label w reader moved =>
      have hmoved := h.quiet.moved moved
      exact ⟨⟨h.quiet.size_t, h.quiet.word, trivial, hmoved.reader⟩, h.writer⟩

/-- **Every step of a worker that is not disturbed, and every step of the reader, keeps the
invariant.**
Source: `journal.c`, `journal_write`, `journal_read`
Kind: P -/
theorem Contended.Inv.moved (h : s.Inv) (hundisturbed : s.Undisturbed l)
    (hm : ContendedMoved s l s') : s'.Inv := by
  cases hm with
  | @write i label w writer moved =>
      have hview : (s.view (s.writer i)).Inv :=
        ⟨h.quiet.holds, h.writer i, h.quiet.reader, h.quiet.whole, h.quiet.ordered⟩
      have hmoved := hview.moved moved
      obtain ⟨hreader, hresults⟩ := moved.reader_eq writer
      have hquiet := hmoved.quiet
      refine ⟨?_, fun k => ?_⟩
      · obtain ⟨region, pc, reader, completed, results⟩ := w
        obtain rfl : reader = s.reader := hreader
        obtain rfl : results = s.results := hresults
        exact hquiet
      · by_cases hk : k = i
        · subst hk
          rw [Contended.writer_writes_self]
          exact hmoved.writer
        · rw [Contended.writer_writes_of_ne s hk, hundisturbed k hk]
          trivial
  | @read label w reader moved =>
      have hmoved := h.quiet.moved moved
      obtain ⟨region, pc, reader', completed, results⟩ := w
      obtain ⟨rfl, -, rfl⟩ := moved.writer_eq reader
      exact ⟨hmoved.quiet, h.writer⟩

/-- **A read always has a next step**, however the writes overlap.
Source: `journal.c`, `journal_read`
Kind: P -/
theorem Contended.Sized.read_goes_on (h : s.Sized) (hbusy : s.reader ≠ .idle)
    (hbuffer : ∀ buffer curSize copied, s.reader = .copying buffer curSize copied →
      n ≤ buffer.length) :
    ∃ label s', (∀ buffer size, label ≠ .readBegin buffer size) ∧
      s.step (.read label) = some s' := by
  obtain ⟨label, w, hbegin, hreader, hstep⟩ := h.quiet.read_goes_on hbusy hbuffer
  exact ⟨label, s.reads w, hbegin, by rw [Contended.step, if_pos hreader, hstep]; rfl⟩

/-! ## The runs of one party -/

/-- A read of `Watched`, between the steps of others, is a read here.
Source: `journal.c`, `journal_read`
Kind: L -/
theorem Contended.run_read {labels : List WatchLabel} {w : Watched n}
    (h : Run Watched.step (fun _ l => l.ofReader = true) (s.view .idle) labels w) :
    Run Contended.step (fun s l => s.Undisturbed l) s (labels.map .read) (s.reads w) := by
  refine (Run.embed (I := fun w => (s.reads w).view .idle = w) s.reads ContendedLabel.read rfl
    ?_ h).2
  intro w l w' hview hl hs
  obtain ⟨hregion, hwriter, hcompleted⟩ := (watchMoved_of_step hs).writer_eq hl
  refine ⟨?_, trivial, ?_⟩
  · obtain ⟨region, pc, reader, completed, results⟩ := w'
    have hstill := congrArg (fun v => (v.region, v.writer, v.completed)) hview
    simp only [Contended.view, Contended.reads, Prod.mk.injEq] at hstill
    obtain ⟨hregion₀, hwriter₀, hcompleted₀⟩ := hstill
    simp only [Contended.view, Contended.reads]
    rw [hregion₀, hwriter₀, hcompleted₀, ← hregion, ← hwriter, ← hcompleted]
  · rw [Contended.step, if_pos hl, hview, hs]
    rfl

/-- A write of `Watched` is a write of worker `i` here, as long as the others are between two calls.
Source: `journal.c`, `journal_write`
Kind: L -/
theorem Contended.run_write {i : ι} (hothers : ∀ k, k ≠ i → s.writer k = .idle)
    {labels : List WatchLabel} {w : Watched n}
    (h : Run Watched.step (fun _ l => l.ofReader = false) (s.view (s.writer i)) labels w) :
    Run Contended.step (fun s l => s.Undisturbed l) s (labels.map (.write i)) (s.writes i w) := by
  have hself : s.writes i (s.view (s.writer i)) = s := by
    simp [Contended.writes, Contended.view]
  -- the worker starts from what it sees now
  suffices hrun : Run Contended.step (fun s l => s.Undisturbed l)
      (s.writes i (s.view (s.writer i))) (labels.map (.write i)) (s.writes i w) by
    rwa [hself] at hrun
  refine (Run.embed (I := fun w => w.reader = s.reader ∧ w.results = s.results) (s.writes i)
    (ContendedLabel.write i) ⟨rfl, rfl⟩ ?_ h).2
  intro w l w' hkept hl hs
  obtain ⟨hreader, hresults⟩ := (watchMoved_of_step hs).reader_eq hl
  have hview : (s.writes i w).view ((s.writes i w).writer i) = w := by
    rw [Contended.writer_writes_self]
    obtain ⟨region, pc, reader, completed, results⟩ := w
    obtain ⟨rfl, rfl⟩ := hkept
    rfl
  refine ⟨⟨hreader.trans hkept.1, hresults.trans hkept.2⟩, fun k hk => ?_, ?_⟩
  · rw [Contended.writer_writes_of_ne s hk]
    exact hothers k hk
  · rw [Contended.step, if_neg (by simp [hl]), hview, hs, Option.map_some, Contended.writes,
      Contended.writes, Function.update_idem]
    rfl

end contended

end CpuMonitor.Server
