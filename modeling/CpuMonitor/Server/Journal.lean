import CpuMonitor.Lib.Buffer

/-!
# The journal: sequential semantics over the byte region

`server/journal.c` keeps a log in one mapped region: bytes `0..8` hold the current size (which
counts these eight bytes), the records follow.

* **The code's model**: `journalCreate`, `journalWrite`, `journalRead` over the raw bytes, with
  64-bit `size_t` arithmetic. A `memcpy` that leaves the region is `none`.
* **The invariant** `Holds r content`: the size word says `8 + content.length` and the bytes after
  it are `content`. The three memory operations of a write are lemmas of their own
  (`Holds.loadSize`, `Holds.copy`, `Holds.storeSize`), so that the concurrent model can use them
  step by step.
* **Sequences of calls** `runOps`: the region always holds the concatenation of the accepted
  writes (`journal_sequential`).
* **Which buffers a read accepts** `journal_read_accepts_iff`: in every journal that writes can
  lead to (`Journal.Reachable`), the test is off by the size word.
-/

namespace CpuMonitor.Server

open CpuMonitor.Lib

/-! ## The data model -/

/-- `sizeof(size_t)`.
Source: none: infrastructure
Kind: D -/
def sizeofSizeT : ℕ := 8

/-- Addition of `size_t` values.
Source: `journal.c`, `journal_write`
Kind: D -/
def addSizeT (a b : ℕ) : ℕ := (a + b) % 2 ^ 64

/-- Subtraction of `size_t` values.
Source: `journal.c`, `journal_read`
Kind: D -/
def subSizeT (a b : ℕ) : ℕ := (a + 2 ^ 64 - b) % 2 ^ 64

/-- A sum that is a `size_t` does not wrap around.
Source: `journal.c`, `journal_write`
Kind: L -/
theorem addSizeT_of_lt {a b : ℕ} (h : a + b < 2 ^ 64) : addSizeT a b = a + b := Nat.mod_eq_of_lt h

/-- Nor does the difference that undoes it.
Source: `journal.c`, `journal_read`
Kind: L -/
theorem subSizeT_add_left (a : ℕ) {b : ℕ} (h : b < 2 ^ 64) : subSizeT (a + b) a = b := by
  rw [subSizeT, show a + b + 2 ^ 64 - a = b + 2 ^ 64 by omega, Nat.add_mod_right,
    Nat.mod_eq_of_lt h]

/-- Source: `journal.h`, `journal_status_t`. Kind: D -/
inductive JournalStatus
  | success
  | errorMunmap
  | errorMmap
  | errorMalloc
  | errorMutexInit
  | errorMutexLock
  | errorMutexUnlock
  | errorWrite
  | errorRead
  | errorNoSpace
  | errorParamsNull
  deriving DecidableEq, Repr

/-- The mapped region: `maxSize` bytes at `journal_ptr`.
Source: `journal.h`, `journal_t`
Kind: D -/
abbrev Region (maxSize : ℕ) : Type := List.Vector UInt8 maxSize

/-- The journal without its mutex, whose calls are inputs of the operations.
Source: `journal.h`, `journal_t`
Kind: D -/
structure Journal where
  /-- `journal->max_size`. -/
  maxSize : ℕ
  /-- The bytes at `journal->journal_ptr`. -/
  region : Region maxSize

/-- Which calls of `journal_create` succeed.
Source: `journal.c`, `journal_create`
Kind: D -/
structure JournalCreateCalls where
  malloc : Bool
  mmap : Bool
  attrInit : Bool
  attrSetpshared : Bool
  mutexInit : Bool

/-- Which `pthread_*` calls of one `journal_write` or `journal_read` return zero.
Source: `journal.c`, `journal_write`, `journal_read`
Kind: D -/
structure JournalCalls where
  lock : Bool
  unlock : Bool

/-- Every call succeeds.
Source: none: infrastructure
Kind: D -/
def JournalCreateCalls.allOk : JournalCreateCalls := ⟨true, true, true, true, true⟩

/-- Every call succeeds.
Source: none: infrastructure
Kind: D -/
def JournalCalls.allOk : JournalCalls := ⟨true, true⟩

/-- The lock is among the calls that succeed.
Source: none: infrastructure
Kind: L -/
@[simp] theorem JournalCalls.allOk_lock : JournalCalls.allOk.lock = true := rfl

/-- So is the unlock.
Source: none: infrastructure
Kind: L -/
@[simp] theorem JournalCalls.allOk_unlock : JournalCalls.allOk.unlock = true := rfl

/-! ## The operations -/

section region

variable {n : ℕ}

/-- `memcpy(&cur_size, journal_ptr, sizeof(size_t))`.
Source: `journal.c`, `journal_write`
Kind: D -/
def loadSize (r : Region n) : Option ℕ := (load r.toList 0 sizeofSizeT).map leValue

/-- `memcpy(journal_ptr, &cur_size, sizeof(size_t))`.
Source: `journal.c`, `journal_write`
Kind: D -/
def storeSize (r : Region n) (size : ℕ) : Option (Region n) :=
  storeVec r 0 (leBytes sizeofSizeT size)

end region

/-- An anonymous mapping is zero-filled; the size word then says that it is empty.
Source: `journal.c`, `journal_create`
Kind: D
Fidelity: exact (every failing branch releases what it took and returns `NULL`) -/
def journalCreate (calls : JournalCreateCalls) (size : ℕ) : Option Journal :=
  if size ≤ sizeofSizeT then none
  else if !calls.malloc then none
  else if !calls.mmap then none
  else do
    let region ← storeSize (List.Vector.replicate size 0) sizeofSizeT
    if !calls.attrInit then none
    else if !calls.attrSetpshared then none
    else if !calls.mutexInit then none
    else some ⟨size, region⟩

/-- Source: `journal.c`, `journal_write`. Kind: D
Fidelity: exact (both pointers non-null) -/
def journalWrite (calls : JournalCalls) (j : Journal) (data : List UInt8) :
    Option (JournalStatus × Journal) :=
  if data.length = 0 then some (.success, j)
  else if !calls.lock then some (.errorMutexLock, j)
  else do
    let curSize ← loadSize j.region
    if addSizeT curSize data.length > j.maxSize then some (.errorNoSpace, j)
    else
      let copied ← storeVec j.region curSize data
      let stored ← storeSize copied (addSizeT curSize data.length)
      if !calls.unlock then some (.errorMutexUnlock, { j with region := stored })
      else some (.success, { j with region := stored })

/-- The status, the caller's buffer and `*buffer_size` after the call. The journal itself is only
read.
Source: `journal.c`, `journal_read`
Kind: D
Fidelity: exact (all pointers non-null) -/
def journalRead (calls : JournalCalls) (j : Journal) (buffer : List UInt8) (bufferSize : ℕ) :
    Option (JournalStatus × List UInt8 × ℕ) :=
  if !calls.lock then some (.errorMutexLock, buffer, 0)
  else do
    let curSize ← loadSize j.region
    if bufferSize < curSize then some (.errorRead, buffer, 0)
    else
      let bytes ← load j.region.toList sizeofSizeT (subSizeT curSize sizeofSizeT)
      let buffer' ← store buffer 0 bytes
      if !calls.unlock then some (.errorMutexUnlock, buffer', 0)
      else some (.success, buffer', subSizeT curSize sizeofSizeT)

/-! ## The invariant on the raw bytes -/

/-- The region holds the records `content`: the size word counts itself and them, and they follow
it.
Source: `journal.c`, `journal_write`
Kind: D -/
structure Holds {n : ℕ} (r : Region n) (content : List UInt8) : Prop where
  size_t : n < 2 ^ 64
  room : sizeofSizeT + content.length ≤ n
  word : slice r.toList 0 sizeofSizeT = leBytes sizeofSizeT (sizeofSizeT + content.length)
  bytes : slice r.toList sizeofSizeT content.length = content

/-- Reading a size word back.
Source: `journal.c`, `journal_write`
Kind: L -/
theorem slice_splice_word (buf : List UInt8) (size : ℕ) :
    slice (splice buf 0 (leBytes sizeofSizeT size)) 0 sizeofSizeT = leBytes sizeofSizeT size := by
  have hself := @slice_splice_self _ buf (leBytes sizeofSizeT size) 0 (Nat.zero_le _)
  rwa [length_leBytes] at hself

namespace Holds

variable {n : ℕ} {r r' : Region n} {content data : List UInt8}

/-- Loading the size word.
Source: `journal.c`, `journal_write`
Kind: L -/
theorem loadSize (h : Holds r content) :
    Server.loadSize r = some (sizeofSizeT + content.length) := by
  have hroom := h.room
  have hle : 0 + sizeofSizeT ≤ r.toList.length := by
    rw [List.Vector.toList_length]
    omega
  have hlt : sizeofSizeT + content.length < 256 ^ sizeofSizeT := by
    have := h.size_t
    norm_num [sizeofSizeT] at *
    omega
  rw [Server.loadSize, load_of_le hle, Option.map_some, h.word, leValue_leBytes_of_lt hlt]

/-- A copy anywhere behind the content changes neither the size word nor the content.
Source: `journal.c`, `journal_write`
Kind: L -/
theorem copy_behind (h : Holds r content) {off : ℕ} (hbehind : sizeofSizeT + content.length ≤ off)
    (hstore : storeVec r off data = some r') : Holds r' content := by
  obtain ⟨hle, hlist⟩ := storeVec_eq_some hstore
  have hoff : off ≤ r.toList.length := by
    rw [List.Vector.toList_length]
    omega
  refine ⟨h.size_t, h.room, ?_, ?_⟩
  · rw [hlist, slice_splice_before (by omega) hoff, h.word]
  · rw [hlist, slice_splice_before (by omega) hoff, h.bytes]

/-- A record copied right behind the content is there, and the content is as it was.
Source: `journal.c`, `journal_write`
Kind: L -/
theorem copy (h : Holds r content)
    (hstore : storeVec r (sizeofSizeT + content.length) data = some r') :
    Holds r' content ∧ slice r'.toList (sizeofSizeT + content.length) data.length = data := by
  obtain ⟨hle, hlist⟩ := storeVec_eq_some hstore
  have hoff : sizeofSizeT + content.length ≤ r.toList.length := by
    rw [List.Vector.toList_length]
    omega
  refine ⟨h.copy_behind le_rfl hstore, ?_⟩
  rw [hlist, slice_splice_self hoff]

/-- Storing the new size makes a copied record part of the content.
Source: `journal.c`, `journal_write`
Kind: L -/
theorem storeSize (h : Holds r content)
    (hdata : slice r.toList (sizeofSizeT + content.length) data.length = data)
    (hroom : sizeofSizeT + content.length + data.length ≤ n) :
    ∃ r', Server.storeSize r (sizeofSizeT + content.length + data.length) = some r' ∧
      Holds r' (content ++ data) := by
  have hword :
      0 + (leBytes sizeofSizeT (sizeofSizeT + content.length + data.length)).length ≤ n := by
    simp
    omega
  obtain ⟨r', hstore, hlist⟩ := storeVec_of_le (v := r) hword
  refine ⟨r', hstore, h.size_t, ?_, ?_, ?_⟩
  · rw [List.length_append]
    omega
  · rw [hlist, slice_splice_word, List.length_append, Nat.add_assoc]
  · rw [hlist, slice_splice_after (by simp) (Nat.zero_le _), List.length_append, slice_add, h.bytes,
      hdata]

end Holds

/-- The records a region holds, as a reader with enough room gets them.
Source: `journal.c`, `journal_write`, `journal_read`
Kind: D -/
def journalContent {n : ℕ} (r : Region n) : List UInt8 :=
  slice r.toList sizeofSizeT (leValue (slice r.toList 0 sizeofSizeT) - sizeofSizeT)

/-- A region that holds a content has it as its content.
Source: `journal.c`, `journal_write`
Kind: L -/
theorem Holds.journalContent {n : ℕ} {r : Region n} {content : List UInt8}
    (h : Holds r content) : Server.journalContent r = content := by
  have hload := h.loadSize
  have hroom := h.room
  rw [Server.loadSize, load_of_le (by rw [List.Vector.toList_length]; omega), Option.map_some,
    Option.some.injEq] at hload
  rw [Server.journalContent, hload, Nat.add_sub_cancel_left, h.bytes]

/-- A new journal holds nothing.
Source: `journal.c`, `journal_create`
Kind: L -/
theorem journalCreate_holds {size : ℕ} (h8 : sizeofSizeT < size) (h64 : size < 2 ^ 64) :
    ∃ r : Region size, journalCreate .allOk size = some ⟨size, r⟩ ∧ Holds r [] := by
  have hword : 0 + (leBytes sizeofSizeT sizeofSizeT).length ≤ size := by
    simp
    omega
  obtain ⟨r, hstore, hlist⟩ :=
    storeVec_of_le (v := List.Vector.replicate size (0 : UInt8)) hword
  refine ⟨r, ?_, h64, h8.le, ?_, by simp⟩
  · simp [journalCreate, JournalCreateCalls.allOk, Nat.not_le.mpr h8, storeSize, hstore]
  · rw [hlist, slice_splice_word]
    rfl

/-- Whatever journal `journal_create` returns is empty.
Source: `journal.c`, `journal_create`
Kind: L -/
theorem holds_of_journalCreate {size : ℕ} {r : Region size} (h64 : size < 2 ^ 64)
    (h : journalCreate .allOk size = some ⟨size, r⟩) : Holds r [] := by
  by_cases h8 : size ≤ sizeofSizeT
  · simp [journalCreate, h8] at h
  · obtain ⟨r', hcreate, hholds⟩ := journalCreate_holds (not_le.mp h8) h64
    rw [hcreate] at h
    simp only [Option.some.injEq, Journal.mk.injEq, heq_eq_eq, true_and] at h
    exact h ▸ hholds

/-! ## The operations on a journal that holds its records -/

section calls

variable {j : Journal} {content data : List UInt8}

/-- The status of a write that got to its end.
Source: `journal.c`, `journal_write`
Kind: D -/
def writeStatus (calls : JournalCalls) : JournalStatus :=
  if !calls.unlock then .errorMutexUnlock else .success

/-- A non-empty write that fits is appended, whatever the unlock answers.
Source: `journal.c`, `journal_write`
Kind: P -/
theorem Holds.journalWrite_of_fits (h : Holds j.region content) {calls : JournalCalls}
    (hlock : calls.lock = true) (hpos : 0 < data.length)
    (hroom : sizeofSizeT + content.length + data.length ≤ j.maxSize) :
    ∃ r, journalWrite calls j data = some (writeStatus calls, { j with region := r }) ∧
      Holds r (content ++ data) := by
  have h64 := h.size_t
  have hadd : addSizeT (sizeofSizeT + content.length) data.length =
      sizeofSizeT + content.length + data.length := addSizeT_of_lt (by omega)
  obtain ⟨copied, hcopy, -⟩ := storeVec_of_le (v := j.region) hroom
  obtain ⟨hholds, hdata⟩ := h.copy hcopy
  obtain ⟨stored, hstore, hfinal⟩ := hholds.storeSize hdata hroom
  refine ⟨stored, ?_, hfinal⟩
  cases hunlock : calls.unlock <;>
    simp [journalWrite, writeStatus, hpos.ne', hlock, hunlock, h.loadSize, hadd,
      Nat.not_lt.mpr hroom, hcopy, hstore]

/-- A non-empty write that does not fit is refused, if the sum in the test does not wrap around.
Source: `journal.c`, `journal_write`
Kind: P -/
theorem Holds.journalWrite_of_noSpace (h : Holds j.region content) {calls : JournalCalls}
    (hlock : calls.lock = true) (hpos : 0 < data.length)
    (hwrap : sizeofSizeT + content.length + data.length < 2 ^ 64)
    (hfull : j.maxSize < sizeofSizeT + content.length + data.length) :
    journalWrite calls j data = some (.errorNoSpace, j) := by
  have hadd : addSizeT (sizeofSizeT + content.length) data.length =
      sizeofSizeT + content.length + data.length := addSizeT_of_lt hwrap
  simp [journalWrite, hpos.ne', hlock, h.loadSize, hadd, hfull]

/-- What a non-empty write does once it has the mutex, if the sum in the test does not wrap around:
it appends what fits and refuses what does not.
Source: `journal.c`, `journal_write`
Kind: P -/
theorem Holds.journalWrite_cases (h : Holds j.region content) {calls : JournalCalls}
    (hlock : calls.lock = true) (hpos : 0 < data.length)
    (hwrap : sizeofSizeT + content.length + data.length < 2 ^ 64) :
    (sizeofSizeT + content.length + data.length ≤ j.maxSize ∧
        ∃ r, journalWrite calls j data = some (writeStatus calls, { j with region := r }) ∧
          Holds r (content ++ data)) ∨
      (j.maxSize < sizeofSizeT + content.length + data.length ∧
        journalWrite calls j data = some (.errorNoSpace, j)) := by
  rcases Nat.lt_or_ge j.maxSize (sizeofSizeT + content.length + data.length) with hfull | hroom
  · exact .inr ⟨hfull, h.journalWrite_of_noSpace hlock hpos hwrap hfull⟩
  · exact .inl ⟨hroom, h.journalWrite_of_fits hlock hpos hroom⟩

/-- A write that fits is appended.
Source: `journal.c`, `journal_write`
Kind: P -/
theorem journalWrite_of_room (h : Holds j.region content)
    (hroom : sizeofSizeT + content.length + data.length ≤ j.maxSize) :
    ∃ r, journalWrite .allOk j data = some (.success, { j with region := r }) ∧
      Holds r (content ++ data) := by
  by_cases hzero : data.length = 0
  · refine ⟨j.region, by simp [journalWrite, hzero], ?_⟩
    rwa [List.length_eq_zero_iff.mp hzero, List.append_nil]
  · exact h.journalWrite_of_fits JournalCalls.allOk_lock (Nat.pos_of_ne_zero hzero) hroom

/-- A non-empty write that does not fit is refused, and nothing changes.
Source: `journal.c`, `journal_write`
Kind: P -/
theorem journalWrite_of_full (h : Holds j.region content) (hpos : 0 < data.length)
    (hwrap : sizeofSizeT + content.length + data.length < 2 ^ 64)
    (hfull : j.maxSize < sizeofSizeT + content.length + data.length) :
    journalWrite .allOk j data = some (.errorNoSpace, j) :=
  h.journalWrite_of_noSpace JournalCalls.allOk_lock hpos hwrap hfull

/-- A read into a buffer of at least the stored size copies exactly the records.
Source: `journal.c`, `journal_read`
Kind: P -/
theorem journalRead_of_le (h : Holds j.region content) {buffer : List UInt8} {bufferSize : ℕ}
    (hsize : sizeofSizeT + content.length ≤ bufferSize) (hbuf : bufferSize ≤ buffer.length) :
    journalRead .allOk j buffer bufferSize =
      some (.success, content ++ buffer.drop content.length, content.length) := by
  have h64 := h.size_t
  have hroom := h.room
  have hsub : subSizeT (sizeofSizeT + content.length) sizeofSizeT = content.length :=
    subSizeT_add_left _ (by omega)
  have hload : load j.region.toList sizeofSizeT content.length = some content := by
    rw [load_of_le (by rw [List.Vector.toList_length]; exact hroom), h.bytes]
  have hstore : store buffer 0 content = some (content ++ buffer.drop content.length) := by
    rw [store_of_le (by omega), splice_zero]
  simp [journalRead, h.loadSize, Nat.not_lt.mpr hsize, hsub, hload, hstore]

end calls

/-- A journal as `journal_create` returns it and `journal_write` keeps it, of a size for which the
space check cannot wrap around.
Source: `journal.c`, `journal_create`, `journal_write`
Kind: D -/
def Journal.WellFormed (j : Journal) : Prop :=
  j.maxSize < 2 ^ 63 ∧ ∃ content, Holds j.region content

/-- **Writing to a well-formed journal** has a defined outcome and keeps it well-formed, whatever
the `pthread_*` calls answer.
Source: `journal.c`, `journal_write`
Kind: P -/
theorem Journal.WellFormed.write {j : Journal} (h : j.WellFormed) (calls : JournalCalls)
    {data : List UInt8} (hlen : data.length < 2 ^ 63) :
    ∃ status j', journalWrite calls j data = some (status, j') ∧ j'.WellFormed := by
  obtain ⟨hmax, content, hholds⟩ := h
  by_cases hzero : data.length = 0
  · exact ⟨.success, j, by simp [journalWrite, hzero], hmax, content, hholds⟩
  cases hlock : calls.lock with
  | false => exact ⟨.errorMutexLock, j, by simp [journalWrite, hzero, hlock], hmax, content, hholds⟩
  | true =>
      have hroom := hholds.room
      rcases hholds.journalWrite_cases hlock (Nat.pos_of_ne_zero hzero) (by omega) with
        ⟨-, stored, hwrite, hfinal⟩ | ⟨-, hwrite⟩
      · exact ⟨writeStatus calls, { j with region := stored }, hwrite, hmax, _, hfinal⟩
      · exact ⟨.errorNoSpace, j, hwrite, hmax, content, hholds⟩

/-! ## Sequences of calls by one caller -/

/-- One call; a read passes the buffer and its size.
Source: `journal.c`, `journal_write`, `journal_read`
Kind: D -/
inductive JournalOp
  | write (data : List UInt8)
  | read (buffer : List UInt8)

/-- The journal and the data of the writes that returned `JOURNAL_STATUS_SUCCESS`, in order.
Source: `journal.c`, `journal_write`, `journal_read`
Kind: D -/
structure JournalTrace where
  journal : Journal
  accepted : List (List UInt8)

/-- One call, all `pthread_*` calls succeeding.
Source: `journal.c`, `journal_write`, `journal_read`
Kind: D -/
def JournalTrace.stepOp (t : JournalTrace) : JournalOp → Option JournalTrace
  | .write data => do
      let (status, j) ← journalWrite .allOk t.journal data
      some ⟨j, if status = .success then t.accepted ++ [data] else t.accepted⟩
  | .read buffer => do
      let _ ← journalRead .allOk t.journal buffer buffer.length
      some t

/-- A sequence of calls.
Source: `journal.c`, `journal_write`, `journal_read`
Kind: D -/
def JournalTrace.runOps (t : JournalTrace) : List JournalOp → Option JournalTrace
  | [] => some t
  | op :: ops => do
      let t' ← t.stepOp op
      t'.runOps ops

/-- The region holds exactly the accepted data.
Source: `journal.c`, `journal_write`, `journal_read`
Kind: D -/
structure JournalTrace.Consistent (t : JournalTrace) (maxSize : ℕ) : Prop where
  size_eq : t.journal.maxSize = maxSize
  holds : Holds t.journal.region t.accepted.flatten

/-- A reader with a buffer that is too small is refused and its buffer is left alone.
Source: `journal.c`, `journal_read`
Kind: L -/
theorem journalRead_of_small {j : Journal} {content buffer : List UInt8} {bufferSize : ℕ}
    (h : Holds j.region content) (hsize : bufferSize < sizeofSizeT + content.length) :
    journalRead .allOk j buffer bufferSize = some (.errorRead, buffer, 0) := by
  simp [journalRead, h.loadSize, hsize]

/-- Every call by one caller has a defined outcome and keeps the region in step with what was
accepted.
Source: `journal.c`, `journal_write`, `journal_read`
Kind: P -/
theorem JournalTrace.Consistent.stepOp {t : JournalTrace} {maxSize : ℕ}
    (h : t.Consistent maxSize) (hmax : maxSize < 2 ^ 63) {op : JournalOp}
    (hop : ∀ data, op = .write data → data.length < 2 ^ 63) :
    ∃ t', t.stepOp op = some t' ∧ t'.Consistent maxSize := by
  have hsize := h.size_eq
  cases op with
  | write data =>
      have hlen := hop data rfl
      by_cases hroom : sizeofSizeT + t.accepted.flatten.length + data.length ≤ t.journal.maxSize
      · obtain ⟨r, hwrite, hholds⟩ := journalWrite_of_room h.holds hroom
        refine ⟨⟨{ t.journal with region := r }, t.accepted ++ [data]⟩, ?_, hsize, ?_⟩
        · simp [JournalTrace.stepOp, hwrite]
        · simpa using hholds
      · have hr := h.holds.room
        have hwrite : journalWrite .allOk t.journal data = some (.errorNoSpace, t.journal) :=
          journalWrite_of_full h.holds (by omega) (by omega) (by omega)
        exact ⟨t, by simp [JournalTrace.stepOp, hwrite], h⟩
  | read buffer =>
      refine ⟨t, ?_, h⟩
      rcases Nat.lt_or_ge buffer.length (sizeofSizeT + t.accepted.flatten.length) with hlt | hge
      · simp [JournalTrace.stepOp, journalRead_of_small h.holds hlt]
      · simp [JournalTrace.stepOp, journalRead_of_le h.holds hge le_rfl]

/-- **Every run** of writes and reads keeps the trace consistent.
Source: `journal.c`, `journal_write`, `journal_read`
Kind: P -/
theorem JournalTrace.Consistent.runOps {t : JournalTrace} {maxSize : ℕ}
    (h : t.Consistent maxSize) (hmax : maxSize < 2 ^ 63) {ops : List JournalOp}
    (hops : ∀ data, .write data ∈ ops → data.length < 2 ^ 63) :
    ∃ t', t.runOps ops = some t' ∧ t'.Consistent maxSize := by
  induction ops generalizing t with
  | nil => exact ⟨t, rfl, h⟩
  | cons op ops ih =>
      obtain ⟨t₁, hstep, h₁⟩ := h.stepOp hmax
        (fun data hdata => hops data (hdata ▸ List.mem_cons_self))
      obtain ⟨t₂, hrun, h₂⟩ := ih h₁ (fun data hdata => hops data (List.mem_cons_of_mem _ hdata))
      exact ⟨t₂, by simp [JournalTrace.runOps, hstep, hrun], h₂⟩

/-- **Sequential journal semantics.** After any sequence of calls by one caller, none of which
leaves the region: the stored size is between `8` and `max_size`; the next non-empty write is
accepted exactly when it fits (without wrap-around in the test), and a refused one leaves the
region as it was, so that whatever does fit is still accepted; and a read into a buffer of at
least the stored size delivers the concatenation of the accepted data and its length.
Source: `journal.c`, `journal_write`, `journal_read`, `journal_create`
Kind: P
Hyps: `8 < maxSize < 2 ^ 63`; data below `2 ^ 63` bytes -/
theorem journal_sequential (maxSize : ℕ) (h8 : sizeofSizeT < maxSize) (h63 : maxSize < 2 ^ 63)
    (ops : List JournalOp) (hops : ∀ data, .write data ∈ ops → data.length < 2 ^ 63) :
    ∃ j₀ t curSize, journalCreate .allOk maxSize = some j₀ ∧
      JournalTrace.runOps ⟨j₀, []⟩ ops = some t ∧
      loadSize t.journal.region = some curSize ∧
      sizeofSizeT ≤ curSize ∧ curSize ≤ maxSize ∧ t.journal.maxSize = maxSize ∧
      (∀ data : List UInt8, 0 < data.length → data.length < 2 ^ 63 →
        curSize + data.length < 2 ^ 64 ∧
        ∃ status j, journalWrite .allOk t.journal data = some (status, j) ∧
          (status = .success ↔
            sizeofSizeT + t.accepted.flatten.length + data.length ≤ maxSize) ∧
          (status ≠ .success → status = .errorNoSpace ∧ j = t.journal ∧
            ∀ data' : List UInt8,
              sizeofSizeT + t.accepted.flatten.length + data'.length ≤ maxSize →
              ∃ j', journalWrite .allOk j data' = some (.success, j'))) ∧
      (∀ buffer : List UInt8, curSize ≤ buffer.length →
        journalRead .allOk t.journal buffer buffer.length =
          some (.success, t.accepted.flatten ++ buffer.drop t.accepted.flatten.length,
            t.accepted.flatten.length)) := by
  obtain ⟨r, hcreate, hholds⟩ := journalCreate_holds h8 (by omega)
  obtain ⟨t, hrun, ht⟩ :=
    (show JournalTrace.Consistent ⟨⟨maxSize, r⟩, []⟩ maxSize from ⟨rfl, hholds⟩).runOps h63 hops
  have hsize := ht.size_eq
  have hroom := ht.holds.room
  have haccept : ∀ data : List UInt8,
      sizeofSizeT + t.accepted.flatten.length + data.length ≤ maxSize →
      ∃ j', journalWrite .allOk t.journal data = some (.success, j') := by
    intro data hdata
    obtain ⟨r', hwrite, -⟩ := journalWrite_of_room ht.holds (hsize ▸ hdata)
    exact ⟨_, hwrite⟩
  refine ⟨_, t, _, hcreate, hrun, ht.holds.loadSize, by omega, by omega, hsize, ?_, ?_⟩
  · intro data hpos hlen
    refine ⟨by omega, ?_⟩
    by_cases hfit : sizeofSizeT + t.accepted.flatten.length + data.length ≤ maxSize
    · obtain ⟨j, hwrite⟩ := haccept data hfit
      exact ⟨.success, j, hwrite, ⟨fun _ => hfit, fun _ => rfl⟩, fun hne => absurd rfl hne⟩
    · have hwrite := journalWrite_of_full ht.holds hpos (by omega) (by omega)
      exact ⟨.errorNoSpace, t.journal, hwrite, ⟨by simp, fun h => absurd h hfit⟩,
        fun _ => ⟨rfl, rfl, haccept⟩⟩
  · intro buffer hbuf
    exact journalRead_of_le ht.holds hbuf le_rfl

/-- A journal of ten bytes: two bytes do not fit after one, one more does, and then it is full.
Source: `journal.c`, `journal_create`
Kind: C -/
theorem journal_sequential_ten :
    ∃ j₀ t curSize, journalCreate .allOk 10 = some j₀ ∧
      JournalTrace.runOps ⟨j₀, []⟩ [.write [1], .write [2, 3], .write [], .write [4]] = some t ∧
      loadSize t.journal.region = some curSize ∧ curSize ≤ 10 := by
  have hops : ∀ data : List UInt8,
      .write data ∈ [.write [1], .write [2, 3], .write [], JournalOp.write [4]] →
      data.length < 2 ^ 63 := by
    intro data hmem
    simp only [List.mem_cons, JournalOp.write.injEq, List.not_mem_nil, or_false] at hmem
    rcases hmem with rfl | rfl | rfl | rfl <;> simp
  obtain ⟨j₀, t, curSize, hcreate, hrun, hload, -, hle, -⟩ :=
    journal_sequential 10 (by decide) (by norm_num) _ hops
  exact ⟨j₀, t, curSize, hcreate, hrun, hload, hle⟩

/-! ## Which buffers a read accepts -/

/-- The journals that `journal_create` and `journal_write` lead to, whatever their system calls
answer.
Source: `journal.c`, `journal_create`, `journal_write`
Kind: D -/
inductive Journal.Reachable : Journal → Prop
  | create {calls : JournalCreateCalls} {size : ℕ} {j : Journal} : size < 2 ^ 64 →
      journalCreate calls size = some j → Reachable j
  | write {calls : JournalCalls} {data : List UInt8} {status : JournalStatus} {j j' : Journal} :
      Reachable j → journalWrite calls j data = some (status, j') → Reachable j'

/-- Only a creation whose calls all succeed returns a journal.
Source: `journal.c`, `journal_create`
Kind: L -/
theorem holds_of_create {calls : JournalCreateCalls} {size : ℕ} {j : Journal} (h64 : size < 2 ^ 64)
    (h : journalCreate calls size = some j) : j.maxSize = size ∧ Holds j.region [] := by
  unfold journalCreate at h
  split_ifs at h with h8
  all_goals obtain ⟨region, hstore, h⟩ := Option.bind_eq_some_iff.mp h
  all_goals cases h
  refine ⟨rfl, holds_of_journalCreate h64 ?_⟩
  simp [journalCreate, JournalCreateCalls.allOk, h8, hstore]

/-- A write that returns leaves a journal that holds records.
Source: `journal.c`, `journal_write`
Kind: P -/
theorem Holds.of_journalWrite {j j' : Journal} {content data : List UInt8} {calls : JournalCalls}
    {status : JournalStatus} (h : Holds j.region content)
    (hwrite : journalWrite calls j data = some (status, j')) :
    ∃ content', Holds j'.region content' := by
  unfold journalWrite at hwrite
  rw [h.loadSize] at hwrite
  by_cases hzero : data.length = 0
  · rw [if_pos hzero] at hwrite
    cases hwrite
    exact ⟨content, h⟩
  rw [if_neg hzero] at hwrite
  by_cases hlock : (!calls.lock) = true
  · rw [if_pos hlock] at hwrite
    cases hwrite
    exact ⟨content, h⟩
  rw [if_neg hlock, Option.bind_eq_bind, Option.bind_some] at hwrite
  by_cases hfull : addSizeT (sizeofSizeT + content.length) data.length > j.maxSize
  · rw [if_pos hfull] at hwrite
    cases hwrite
    exact ⟨content, h⟩
  rw [if_neg hfull] at hwrite
  obtain ⟨copied, hcopy, hwrite⟩ := Option.bind_eq_some_iff.mp hwrite
  obtain ⟨stored, hstore, hwrite⟩ := Option.bind_eq_some_iff.mp hwrite
  -- the copy was in bounds, so the sum of the sizes is one of `size_t`s
  have hroom := (storeVec_eq_some hcopy).1
  have hsize := h.size_t
  obtain ⟨hcopied, hdata⟩ := h.copy hcopy
  obtain ⟨stored', hstore', hholds⟩ := hcopied.storeSize hdata hroom
  rw [addSizeT_of_lt (by omega), hstore', Option.some.injEq] at hstore
  subst hstore
  refine ⟨content ++ data, ?_⟩
  split_ifs at hwrite
  · cases hwrite
    exact hholds
  · cases hwrite
    exact hholds

/-- **Every journal holds its records.**
Source: `journal.c`, `journal_create`, `journal_write`
Kind: P -/
theorem Journal.Reachable.holds {j : Journal} (h : j.Reachable) :
    Holds j.region (journalContent j.region) := by
  have hsome : ∃ content, Holds j.region content := by
    induction h with
    | create h64 hcreate => exact ⟨[], (holds_of_create h64 hcreate).2⟩
    | write _ hwrite ih =>
        obtain ⟨content, hholds⟩ := ih
        exact hholds.of_journalWrite hwrite
  obtain ⟨content, hholds⟩ := hsome
  rwa [hholds.journalContent]

/-- What a read of `content` into a buffer should return: the records if they fit, an error and
the buffer as it was otherwise.
Source: `journal.c`, `journal_read`
Kind: D -/
def ReadsWhatFits (content buffer : List UInt8) (bufferSize : ℕ)
    (r : JournalStatus × List UInt8 × ℕ) : Prop :=
  if content.length ≤ bufferSize then
    r = (.success, content ++ buffer.drop content.length, content.length)
  else r = (.errorRead, buffer, 0)

/-- **Which buffers a read accepts.** The size it compares with counts the size word, the bytes it
copies and the size it reports do not: a buffer that has room for the records but not for eight
bytes more is refused. So is every buffer of exactly the size that a read has reported.
Source: `journal.c`, `journal_read`
Kind: P
Hyps: the buffer has the size that is passed -/
theorem journal_read_accepts_iff {j : Journal} (hj : j.Reachable) {content buffer : List UInt8}
    (hcontent : journalContent j.region = content) {bufferSize : ℕ}
    (hbuffer : bufferSize ≤ buffer.length) :
    (∃ r, journalRead .allOk j buffer bufferSize = some r ∧
      (ReadsWhatFits content buffer bufferSize r ↔
        bufferSize < content.length ∨ sizeofSizeT + content.length ≤ bufferSize)) ∧
    ∀ again : List UInt8,
      journalRead .allOk j again content.length = some (.errorRead, again, 0) := by
  subst hcontent
  have hholds := hj.holds
  constructor
  · by_cases hsmall : bufferSize < sizeofSizeT + (journalContent j.region).length
    · refine ⟨_, journalRead_of_small hholds hsmall, ?_⟩
      unfold ReadsWhatFits
      split_ifs with hfits
      · constructor
        · intro hsuccess
          cases hsuccess
        · omega
      · exact ⟨fun _ => .inl (Nat.not_le.mp hfits), fun _ => rfl⟩
    · have hlarge := Nat.not_lt.mp hsmall
      refine ⟨_, journalRead_of_le hholds hlarge hbuffer, ?_⟩
      rw [ReadsWhatFits, if_pos (by omega)]
      exact ⟨fun _ => .inr hlarge, fun _ => rfl⟩
  · intro again
    exact journalRead_of_small hholds (Nat.lt_add_of_pos_left (by decide))

/-- A journal with any one record is reached.
Source: `journal.c`, `journal_create`, `journal_write`
Kind: L -/
theorem exists_reachable (content : List UInt8) (hlen : content.length < 2 ^ 32) :
    ∃ j : Journal, j.Reachable ∧ journalContent j.region = content := by
  have hsize : sizeofSizeT + content.length + 1 < 2 ^ 64 := by
    norm_num [sizeofSizeT] at hlen ⊢
    omega
  obtain ⟨r, hcreate, hempty⟩ :=
    journalCreate_holds (show sizeofSizeT < sizeofSizeT + content.length + 1 by omega) hsize
  have hroom : sizeofSizeT + ([] : List UInt8).length + content.length ≤
      (⟨sizeofSizeT + content.length + 1, r⟩ : Journal).maxSize := by
    show sizeofSizeT + 0 + content.length ≤ sizeofSizeT + content.length + 1
    omega
  obtain ⟨r', hwrite, hholds⟩ := journalWrite_of_room hempty hroom
  exact ⟨_, .write (.create hsize hcreate) hwrite, hholds.journalContent⟩

/-- A buffer with room for the records and eight bytes more is accepted.
Source: `journal.c`, `journal_read`
Kind: C -/
theorem journal_read_accepts_eleven :
    ∃ j : Journal, j.Reachable ∧ journalContent j.region = [65, 66, 67] ∧
      journalRead .allOk j (List.replicate 11 0) 11 =
        some (.success, [65, 66, 67] ++ List.replicate 8 0, 3) := by
  obtain ⟨j, hj, hcontent⟩ := exists_reachable [65, 66, 67] (by norm_num)
  refine ⟨j, hj, hcontent, ?_⟩
  obtain ⟨⟨r, hread, hfits⟩, -⟩ := journal_read_accepts_iff hj hcontent
    (show 11 ≤ (List.replicate 11 (0 : UInt8)).length by decide)
  rw [hread, show r = _ from hfits.mpr (.inr (by decide))]
  rfl

/-- For three bytes of records ten bytes are refused, and so are the three that a read reports.
Source: `journal.c`, `journal_read`
Kind: C -/
theorem journal_read_refuses_ten :
    ∃ j : Journal, j.Reachable ∧ journalContent j.region = [65, 66, 67] ∧
      journalRead .allOk j (List.replicate 10 0) 10 =
        some (.errorRead, List.replicate 10 0, 0) ∧
      journalRead .allOk j (List.replicate 3 0) 3 = some (.errorRead, List.replicate 3 0, 0) := by
  obtain ⟨j, hj, hcontent⟩ := exists_reachable [65, 66, 67] (by norm_num)
  have hholds := hj.holds
  rw [hcontent] at hholds
  exact ⟨j, hj, hcontent, journalRead_of_small hholds (by decide),
    journalRead_of_small hholds (by decide)⟩

end CpuMonitor.Server
