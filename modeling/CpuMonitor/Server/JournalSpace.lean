import CpuMonitor.Server.Journal

/-!
# The space check of the journal

`server/journal.c`, `journal_write`: the test `cur_size + data_size > journal->max_size` adds two
`size_t`s before it compares, so the sum can wrap around. A wrapped sum is below `cur_size`, hence
below `max_size`: the test lets through a length that is far too large, and the size that the code
goes on to store is smaller than the one before.

* **The sum** `addSizeT_add_of_wrap`, `addSizeT_lt_of_wrap`: one period less than the exact one.
* `Holds.journalWrite_of_wrap` — a write whose sum wraps around passes the test and copies past the
  end of the region.
* `Journal.ChecksSpace` says what the test is for: a write is refused exactly if it does not fit,
  and the stored size never decreases. `space_check_exact_iff` — it does so exactly if the sum does
  not wrap around.
* `checksSpace_everywhere_iff` — for which sizes of a journal and of the data that is so in every
  state, a full journal included.
-/

namespace CpuMonitor.Server

open CpuMonitor.Lib

/-! ## The sum in the test -/

section sum

variable {a b : ℕ}

/-- A sum that wraps around is one period below the exact one.
Source: `journal.c`, `journal_write`
Kind: L -/
theorem addSizeT_add_of_wrap (ha : a < 2 ^ 64) (hb : b < 2 ^ 64) (h : 2 ^ 64 ≤ a + b) :
    addSizeT a b + 2 ^ 64 = a + b := by
  have hlt : a + b - 2 ^ 64 < 2 ^ 64 := by omega
  rw [addSizeT, Nat.mod_eq_sub_mod h, Nat.mod_eq_of_lt hlt, Nat.sub_add_cancel h]

/-- So it is below the first summand.
Source: `journal.c`, `journal_write`
Kind: L -/
theorem addSizeT_lt_of_wrap (ha : a < 2 ^ 64) (hb : b < 2 ^ 64) (h : 2 ^ 64 ≤ a + b) :
    addSizeT a b < a := by
  have hsum := addSizeT_add_of_wrap ha hb h
  omega

end sum

/-! ## A write whose sum wraps around -/

section wrap

variable {j : Journal} {content data : List UInt8}

/-- The test is passed, and the copy leaves the region.
Source: `journal.c`, `journal_write`
Kind: P -/
theorem Holds.journalWrite_of_wrap (h : Holds j.region content) {calls : JournalCalls}
    (hlock : calls.lock = true) (hsize : data.length < 2 ^ 64)
    (hwrap : 2 ^ 64 ≤ sizeofSizeT + content.length + data.length) :
    journalWrite calls j data = none := by
  have h64 := h.size_t
  have hroom := h.room
  have hpos : data.length ≠ 0 := by omega
  have hpass : ¬addSizeT (sizeofSizeT + content.length) data.length > j.maxSize := by
    have hlt := addSizeT_lt_of_wrap (lt_of_le_of_lt hroom h64) hsize hwrap
    omega
  have hcopy : storeVec j.region (sizeofSizeT + content.length) data = none := by
    rw [storeVec, dif_neg]
    omega
  simp [journalWrite, hpos, hlock, h.loadSize, hpass, hcopy]

end wrap

/-! ## What the test is for -/

/-- What the test is for, at a stored size of `curSize` and for `dataSize` bytes: the write is
refused, with nothing copied, exactly if it does not fit; and it leaves a size that is not smaller.
Source: `journal.c`, `journal_write`
Kind: D -/
structure Journal.ChecksSpace (j : Journal) (curSize dataSize : ℕ) : Prop where
  refused_iff : ∀ (calls : JournalCalls) (data : List UInt8), calls.lock = true →
    data.length = dataSize →
    (journalWrite calls j data = some (.errorNoSpace, j) ↔ j.maxSize - curSize < dataSize)
  size_le : ∀ (calls : JournalCalls) (data : List UInt8), calls.lock = true →
    data.length = dataSize → ∃ status j' newSize, journalWrite calls j data = some (status, j') ∧
      loadSize j'.region = some newSize ∧ curSize ≤ newSize

/-- A write that got to its end does not report that there was no space.
Source: `journal.c`, `journal_write`
Kind: L -/
theorem writeStatus_ne_errorNoSpace (calls : JournalCalls) :
    writeStatus calls ≠ .errorNoSpace := by
  unfold writeStatus
  split_ifs
  · intro heq
    cases heq
  · intro heq
    cases heq

section check

variable {j : Journal} {content : List UInt8} {dataSize : ℕ}

/-- Without a wrap-around the test is exact.
Source: `journal.c`, `journal_write`
Kind: P -/
theorem Holds.checksSpace_of_lt (h : Holds j.region content) (hpos : 1 ≤ dataSize)
    (hwrap : sizeofSizeT + content.length + dataSize < 2 ^ 64) :
    j.ChecksSpace (sizeofSizeT + content.length) dataSize := by
  have hroom := h.room
  constructor
  · rintro calls data hlock rfl
    rcases h.journalWrite_cases hlock hpos hwrap with ⟨hfit, r, hwrite, -⟩ | ⟨hfull, hwrite⟩
    · rw [hwrite, Option.some.injEq, Prod.mk.injEq]
      exact iff_of_false (fun heq => writeStatus_ne_errorNoSpace calls heq.1) (by omega)
    · exact iff_of_true hwrite (by omega)
  · rintro calls data hlock rfl
    rcases h.journalWrite_cases hlock hpos hwrap with ⟨-, r, hwrite, hholds⟩ | ⟨-, hwrite⟩
    · refine ⟨_, _, _, hwrite, hholds.loadSize, ?_⟩
      rw [List.length_append]
      omega
    · exact ⟨_, _, _, hwrite, h.loadSize, le_rfl⟩

/-- With a wrap-around it lets through what does not fit.
Source: `journal.c`, `journal_write`
Kind: P -/
theorem Holds.not_checksSpace_of_wrap (h : Holds j.region content) (hsize : dataSize < 2 ^ 64)
    (hwrap : 2 ^ 64 ≤ sizeofSizeT + content.length + dataSize) :
    ¬j.ChecksSpace (sizeofSizeT + content.length) dataSize := by
  intro hcheck
  have hlen : (List.replicate dataSize (0 : UInt8)).length = dataSize := List.length_replicate
  have hnone : journalWrite .allOk j (List.replicate dataSize 0) = none := by
    apply h.journalWrite_of_wrap JournalCalls.allOk_lock
    · rwa [hlen]
    · rwa [hlen]
  obtain ⟨status, j', -, hwrite, -⟩ := hcheck.size_le .allOk _ JournalCalls.allOk_lock hlen
  rw [hnone] at hwrite
  cases hwrite

/-- The test is exact if and only if the sum does not wrap around.
Source: `journal.c`, `journal_write`
Kind: L -/
theorem Holds.checksSpace_iff (h : Holds j.region content) (hpos : 1 ≤ dataSize)
    (hsize : dataSize < 2 ^ 64) :
    j.ChecksSpace (sizeofSizeT + content.length) dataSize ↔
      sizeofSizeT + content.length + dataSize < 2 ^ 64 := by
  constructor
  · intro hcheck
    by_contra hwrap
    exact h.not_checksSpace_of_wrap hsize (Nat.not_lt.mp hwrap) hcheck
  · exact h.checksSpace_of_lt hpos

end check

/-- **The space check is exact exactly if its sum does not wrap around.** In every state of a
journal and for every length of the data: if `cur_size + data_size` is below `2 ^ 64`, the write is
refused exactly if it does not fit, and the stored size does not decrease. Otherwise the length does
not fit either, but the test passes: the copy runs past the end of the region, and the size to be
stored after it is below the present one.
Source: `journal.c`, `journal_write` (`cur_size + data_size > journal->max_size`)
Kind: P
Hyps: `dataSize` is a positive `size_t` -/
theorem space_check_exact_iff {j : Journal} (hj : j.Reachable) {dataSize : ℕ}
    (hpos : 1 ≤ dataSize) (hsize : dataSize < 2 ^ 64) :
    ∃ curSize, loadSize j.region = some curSize ∧ sizeofSizeT ≤ curSize ∧ curSize ≤ j.maxSize ∧
      (j.ChecksSpace curSize dataSize ↔ curSize + dataSize < 2 ^ 64) ∧
      (2 ^ 64 ≤ curSize + dataSize → j.maxSize - curSize < dataSize ∧
        addSizeT curSize dataSize ≤ j.maxSize ∧ addSizeT curSize dataSize < curSize ∧
        ∀ (calls : JournalCalls) (data : List UInt8), calls.lock = true →
          data.length = dataSize → journalWrite calls j data = none) := by
  have hholds := hj.holds
  have h64 := hholds.size_t
  have hroom := hholds.room
  refine ⟨_, hholds.loadSize, Nat.le_add_right _ _, hroom, hholds.checksSpace_iff hpos hsize, ?_⟩
  intro hwrap
  have hback := addSizeT_lt_of_wrap (lt_of_le_of_lt hroom h64) hsize hwrap
  refine ⟨by omega, by omega, hback, ?_⟩
  rintro calls data hlock rfl
  exact hholds.journalWrite_of_wrap hlock hsize hwrap

/-- A new journal of sixteen bytes refuses nine.
Source: `journal.c`, `journal_write`
Kind: C -/
theorem space_check_exact_nine :
    ∃ j : Journal, j.Reachable ∧ loadSize j.region = some 8 ∧ j.maxSize = 16 ∧
      journalWrite .allOk j (List.replicate 9 0) = some (.errorNoSpace, j) := by
  obtain ⟨r, hcreate, hempty⟩ :=
    journalCreate_holds (show sizeofSizeT < 16 by decide) (by norm_num)
  have hj : Journal.Reachable ⟨16, r⟩ := .create (by norm_num) hcreate
  obtain ⟨curSize, hload, -, -, hexact, -⟩ :=
    space_check_exact_iff hj (show 1 ≤ 9 by decide) (by norm_num)
  obtain rfl : 8 = curSize := Option.some.inj (hempty.loadSize.symm.trans hload)
  have hcheck := hexact.mpr (by norm_num)
  have hrefused := hcheck.refused_iff .allOk (List.replicate 9 0) rfl List.length_replicate
  exact ⟨_, hj, hload, rfl, hrefused.mpr (show 16 - 8 < 9 by decide)⟩

/-- A new journal of sixteen bytes and a length of `2 ^ 64 - 8`: the sum is zero, which passes the
test and is the size to be stored, and the copy leaves the region.
Source: `journal.c`, `journal_write`
Kind: C -/
theorem wrapped_length_passes_check :
    ∃ j : Journal, journalCreate .allOk 16 = some j ∧ loadSize j.region = some 8 ∧
      j.maxSize - 8 < 2 ^ 64 - 8 ∧ addSizeT 8 (2 ^ 64 - 8) = 0 ∧
      ¬addSizeT 8 (2 ^ 64 - 8) > j.maxSize ∧
      journalWrite .allOk j (List.replicate (2 ^ 64 - 8) 0) = none := by
  obtain ⟨r, hcreate, hempty⟩ :=
    journalCreate_holds (show sizeofSizeT < 16 by decide) (by norm_num)
  refine ⟨_, hcreate, hempty.loadSize, by norm_num, by norm_num [addSizeT],
    by norm_num [addSizeT], ?_⟩
  have hlen : (List.replicate (2 ^ 64 - 8) (0 : UInt8)).length = 2 ^ 64 - 8 :=
    List.length_replicate
  apply hempty.journalWrite_of_wrap JournalCalls.allOk_lock
  · rw [hlen]
    norm_num
  · rw [hlen]
    norm_num [sizeofSizeT]

/-! ## In every state -/

/-- A journal can be filled.
Source: `journal.c`, `journal_write`
Kind: L -/
theorem exists_full {maxSize : ℕ} (h8 : sizeofSizeT < maxSize) (h64 : maxSize < 2 ^ 64) :
    ∃ j : Journal, j.Reachable ∧ j.maxSize = maxSize ∧ loadSize j.region = some maxSize := by
  obtain ⟨r, hcreate, hempty⟩ := journalCreate_holds h8 h64
  have hfull : sizeofSizeT + (List.replicate (maxSize - sizeofSizeT) (0 : UInt8)).length =
      maxSize := by
    rw [List.length_replicate]
    omega
  obtain ⟨r', hwrite, hholds⟩ := journalWrite_of_room (j := ⟨maxSize, r⟩) hempty hfull.le
  refine ⟨_, .write (.create h64 hcreate) hwrite, rfl, ?_⟩
  rw [hholds.loadSize, List.nil_append, hfull]

/-- **Which lengths are checked exactly in every state of a journal**: those whose sum with its size
does not wrap around.
Source: `journal.c`, `journal_write`
Kind: P -/
theorem checksSpace_everywhere_iff {maxSize dataSize : ℕ} (h8 : sizeofSizeT < maxSize)
    (h64 : maxSize < 2 ^ 64) (hpos : 1 ≤ dataSize) (hsize : dataSize < 2 ^ 64) :
    (∀ (j : Journal) (curSize : ℕ), j.Reachable → j.maxSize = maxSize →
      loadSize j.region = some curSize → j.ChecksSpace curSize dataSize) ↔
      maxSize + dataSize < 2 ^ 64 := by
  -- the stored size of a journal is the one its records give
  have hiff : ∀ (j : Journal) (curSize : ℕ), j.Reachable → loadSize j.region = some curSize →
      (j.ChecksSpace curSize dataSize ↔ curSize + dataSize < 2 ^ 64) := by
    intro j curSize hj hload
    obtain rfl := Option.some.inj (hj.holds.loadSize.symm.trans hload)
    exact hj.holds.checksSpace_iff hpos hsize
  constructor
  · intro hall
    obtain ⟨j, hj, hmax, hload⟩ := exists_full h8 h64
    exact (hiff j maxSize hj hload).mp (hall j maxSize hj hmax hload)
  · rintro hsum j curSize hj rfl hload
    refine (hiff j curSize hj hload).mpr ?_
    have hroom := hj.holds.room
    obtain rfl := Option.some.inj (hj.holds.loadSize.symm.trans hload)
    omega

end CpuMonitor.Server
