import Mathlib

/-!
# Memory blocks and little-endian words

A C object of known size is a list of cells; `memcpy` into or out of it is partial, and `none`
is an access outside the block. Nothing here names a program.

* **Cells** `slice buf off len`, `splice buf off src`: reading and overwriting a range, with the
  read-over-write laws (`slice_splice_self`, `slice_splice_before`, `slice_splice_after`).
* **Bounds-checked copies** `load`, `store`: the same two operations, `none` outside the block;
  `storeVec` and `overlay` for arrays whose size is fixed by their type.
* **Words** `leBytes w n`, `leValue bs`: the little-endian image of a number on `w` bytes and the
  number of a byte list; they are inverse to each other on values below `256 ^ w`.
-/

namespace CpuMonitor.Lib

variable {α : Type*}

/-! ## Ranges of a block -/

/-- The `len` cells of `buf` from offset `off` on.
Source: none: infrastructure
Kind: D -/
def slice (buf : List α) (off len : ℕ) : List α := (buf.drop off).take len

/-- `buf` with the cells from offset `off` on replaced by `src`.
Source: none: infrastructure
Kind: D -/
def splice (buf : List α) (off : ℕ) (src : List α) : List α :=
  buf.take off ++ src ++ buf.drop (off + src.length)

/-- A slice within the buffer has the length that is asked for.
Source: none: infrastructure
Kind: L -/
theorem length_slice {buf : List α} {off len : ℕ} (h : off + len ≤ buf.length) :
    (slice buf off len).length = len := by
  simp only [slice, List.length_take, List.length_drop]
  omega

/-- Writing within the buffer keeps its length.
Source: none: infrastructure
Kind: L -/
theorem length_splice {buf src : List α} {off : ℕ} (h : off + src.length ≤ buf.length) :
    (splice buf off src).length = buf.length := by
  simp only [splice, List.length_append, List.length_take, List.length_drop]
  omega

/-- A slice of length zero is empty.
Source: none: infrastructure
Kind: L -/
@[simp] theorem slice_zero_len (buf : List α) (off : ℕ) : slice buf off 0 = [] := by
  simp [slice]

/-- A range is its first `a` cells followed by the next `b`.
Source: none: infrastructure
Kind: L -/
theorem slice_add (buf : List α) (off a b : ℕ) :
    slice buf off (a + b) = slice buf off a ++ slice buf (off + a) b := by
  simp only [slice, List.take_add, List.drop_drop]

/-- A range of a range is a range.
Source: none: infrastructure
Kind: L -/
theorem slice_slice {buf : List α} {off len i n : ℕ} (h : i + n ≤ len) :
    slice (slice buf off len) i n = slice buf (off + i) n := by
  simp only [slice, List.drop_take, List.drop_drop, List.take_take]
  congr 1
  omega

/-- What was written is read back.
Source: none: infrastructure
Kind: L -/
theorem slice_splice_self {buf src : List α} {off : ℕ} (h : off ≤ buf.length) :
    slice (splice buf off src) off src.length = src := by
  have htake : (buf.take off).length = off := by simp [h]
  unfold slice splice
  rw [List.append_assoc, List.drop_append, htake, Nat.sub_self, List.drop_zero,
    List.drop_of_length_le (by omega), List.nil_append, List.take_left]

/-- A write leaves the cells before it alone.
Source: none: infrastructure
Kind: L -/
theorem slice_splice_before {buf src : List α} {off i n : ℕ} (h : i + n ≤ off)
    (hoff : off ≤ buf.length) : slice (splice buf off src) i n = slice buf i n := by
  have htake : (buf.take off).length = off := by simp [hoff]
  unfold slice splice
  rw [List.append_assoc, List.drop_append_of_le_length (by omega), List.drop_take,
    List.take_append_of_le_length (by simp; omega), List.take_take]
  congr 1
  omega

/-- A write leaves the cells after it alone.
Source: none: infrastructure
Kind: L -/
theorem slice_splice_after {buf src : List α} {off i n : ℕ} (h : off + src.length ≤ i)
    (hoff : off ≤ buf.length) : slice (splice buf off src) i n = slice buf i n := by
  have hlen : (buf.take off ++ src).length = off + src.length := by simp [hoff]
  unfold slice splice
  rw [List.drop_append, hlen, List.drop_of_length_le (by omega), List.nil_append, List.drop_drop]
  congr 2
  omega

/-- Writing at the start keeps exactly the cells past the written ones.
Source: none: infrastructure
Kind: L -/
theorem splice_zero (buf src : List α) : splice buf 0 src = src ++ buf.drop src.length := by
  simp [splice]

/-- Reading the first part of a concatenation.
Source: none: infrastructure
Kind: L -/
theorem slice_append_self {xs ys : List α} {n : ℕ} (h : xs.length = n) :
    slice (xs ++ ys) 0 n = xs := by
  rw [slice, List.drop_zero, ← h, List.take_left]

/-- The slice of the whole list is the list.
Source: none: infrastructure
Kind: L -/
@[simp] theorem slice_length (xs : List α) : slice xs 0 xs.length = xs := by
  simp [slice]

/-- Reading past the first part of a concatenation.
Source: none: infrastructure
Kind: L -/
theorem slice_append_skip {xs ys : List α} {off len : ℕ} (h : xs.length ≤ off) :
    slice (xs ++ ys) off len = slice ys (off - xs.length) len := by
  rw [slice, slice, List.drop_append, List.drop_of_length_le h, List.nil_append]

/-- A slice within the first of two lists does not see the second.
Source: none: infrastructure
Kind: L -/
theorem slice_append_of_le {xs ys : List α} {off len : ℕ} (h : off + len ≤ xs.length) :
    slice (xs ++ ys) off len = slice xs off len := by
  rw [slice, slice, List.drop_append_of_le_length (by omega),
    List.take_append_of_le_length (by rw [List.length_drop]; omega)]

/-- A slice within a front part is a slice of the whole.
Source: none: infrastructure
Kind: L -/
theorem slice_take {xs : List α} {n off len : ℕ} (h : off + len ≤ n) :
    slice (xs.take n) off len = slice xs off len := by
  rw [slice, slice, List.drop_take, List.take_take, Nat.min_eq_left (by omega)]

/-- Overwriting one cell.
Source: none: infrastructure
Kind: L -/
theorem splice_singleton {buf : List α} {off : ℕ} (h : off < buf.length) (x : α) :
    splice buf off [x] = buf.set off x := by
  rw [splice, List.set_eq_take_append_cons_drop, if_pos h, List.length_singleton,
    List.append_assoc, List.singleton_append]

/-- One more cell behind the ones just written.
Source: none: infrastructure
Kind: L -/
theorem splice_splice_next {buf xs : List α} {off : ℕ} (h : off + xs.length < buf.length) (x : α) :
    splice (splice buf off xs) (off + xs.length) [x] = splice buf off (xs ++ [x]) := by
  have hhead : (buf.take off ++ xs).length = off + xs.length := by
    rw [List.length_append, List.length_take, Nat.min_eq_left (by omega)]
  have htake : (splice buf off xs).take (off + xs.length) = buf.take off ++ xs :=
    List.take_left' hhead
  have hdrop : (splice buf off xs).drop (off + xs.length + 1) =
      buf.drop (off + xs.length + 1) := by
    rw [splice, List.drop_append, hhead, List.drop_of_length_le (by omega), List.nil_append,
      List.drop_drop]
    congr 1
    omega
  rw [splice, htake, List.length_singleton, hdrop, splice, List.length_append,
    List.length_singleton, List.append_assoc (buf.take off), ← Nat.add_assoc]

/-- A range, cell by cell.
Source: none: infrastructure
Kind: L -/
theorem slice_eq_of_getElem? {buf xs : List α} {off : ℕ}
    (h : ∀ i < xs.length, buf[off + i]? = xs[i]?) : slice buf off xs.length = xs := by
  apply List.ext_getElem?
  intro i
  rcases Nat.lt_or_ge i xs.length with hlt | hge
  · rw [slice, List.getElem?_take_of_lt hlt, List.getElem?_drop, h i hlt]
  · rw [slice, List.getElem?_take_eq_none hge, List.getElem?_eq_none hge]

/-- A cell of a range.
Source: none: infrastructure
Kind: L -/
theorem getElem?_of_slice_eq {buf xs : List α} {off i : ℕ} (h : slice buf off xs.length = xs)
    (hi : i < xs.length) : buf[off + i]? = xs[i]? := by
  rw [← h, slice, List.getElem?_take_of_lt hi, List.getElem?_drop]

/-! ## Bounds-checked copies -/

/-- `memcpy` out of a block: `none` when the range leaves it.
Source: none: infrastructure
Kind: D -/
def load (buf : List α) (off len : ℕ) : Option (List α) :=
  if off + len ≤ buf.length then some (slice buf off len) else none

/-- `memcpy` into a block: `none` when the range leaves it.
Source: none: infrastructure
Kind: D -/
def store (buf : List α) (off : ℕ) (src : List α) : Option (List α) :=
  if off + src.length ≤ buf.length then some (splice buf off src) else none

/-- A read within the buffer returns the slice.
Source: none: infrastructure
Kind: L -/
theorem load_of_le {buf : List α} {off len : ℕ} (h : off + len ≤ buf.length) :
    load buf off len = some (slice buf off len) := if_pos h

/-- A write within the buffer replaces the slice.
Source: none: infrastructure
Kind: L -/
theorem store_of_le {buf src : List α} {off : ℕ} (h : off + src.length ≤ buf.length) :
    store buf off src = some (splice buf off src) := if_pos h

/-- A store that happened was in bounds, and kept the size of the block.
Source: none: infrastructure
Kind: L -/
theorem length_of_store {buf buf' src : List α} {off : ℕ} (h : store buf off src = some buf') :
    off + src.length ≤ buf.length ∧ buf'.length = buf.length := by
  unfold store at h
  split_ifs at h with hle
  obtain rfl := Option.some.inj h
  exact ⟨hle, length_splice hle⟩

/-- A read that returns was within the buffer and has the length that was asked for.
Source: none: infrastructure
Kind: L -/
theorem length_of_load {buf bytes : List α} {off len : ℕ} (h : load buf off len = some bytes) :
    off + len ≤ buf.length ∧ bytes.length = len := by
  unfold load at h
  split_ifs at h with hle
  obtain rfl := Option.some.inj h
  exact ⟨hle, length_slice hle⟩

/-- One more cell behind the ones just written.
Source: none: infrastructure
Kind: L -/
theorem store_next {buf buf' src : List α} {off : ℕ} (h : store buf off src = some buf')
    (hlt : off + src.length < buf.length) (x : α) :
    store buf' (off + src.length) [x] = store buf off (src ++ [x]) := by
  obtain ⟨hle, hlength⟩ := length_of_store h
  rw [store_of_le hle, Option.some.injEq] at h
  have hone : off + (src ++ [x]).length ≤ buf.length := by
    rw [List.length_append, List.length_singleton]
    omega
  rw [store_of_le (by rw [hlength, List.length_singleton]; omega), store_of_le hone, ← h,
    splice_splice_next hlt]

/-! ## Blocks of a fixed size -/

section fixed

variable {n : ℕ}

/-- `memcpy` into an array of `n` cells: `none` when the range leaves it. The size is part of the
type, so that no later proof has to carry it.
Source: none: infrastructure
Kind: D -/
def storeVec (v : List.Vector α n) (off : ℕ) (src : List α) : Option (List.Vector α n) :=
  if h : off + src.length ≤ n then
    some ⟨splice v.toList off src, by rw [length_splice (by simpa using h), v.toList_length]⟩
  else none

/-- A write within a buffer of fixed length, whose bytes it replaces.
Source: none: infrastructure
Kind: L -/
theorem storeVec_of_le {v : List.Vector α n} {off : ℕ} {src : List α}
    (h : off + src.length ≤ n) :
    ∃ v', storeVec v off src = some v' ∧ v'.toList = splice v.toList off src :=
  ⟨_, dif_pos h, rfl⟩

/-- A store that happened was in bounds, and this is what it wrote.
Source: none: infrastructure
Kind: L -/
theorem storeVec_eq_some {v v' : List.Vector α n} {off : ℕ} {src : List α}
    (h : storeVec v off src = some v') :
    off + src.length ≤ n ∧ v'.toList = splice v.toList off src := by
  unfold storeVec at h
  split_ifs at h with hle
  obtain rfl := Option.some.inj h
  exact ⟨hle, rfl⟩

/-- One more cell behind the ones just written.
Source: none: infrastructure
Kind: L -/
theorem storeVec_next {v v' : List.Vector α n} {off : ℕ} {src : List α}
    (h : storeVec v off src = some v') (hlt : off + src.length < n) (x : α) :
    storeVec v' (off + src.length) [x] = storeVec v off (src ++ [x]) := by
  obtain ⟨-, hv'⟩ := storeVec_eq_some h
  have hone : off + src.length + [x].length ≤ n := hlt
  have hall : off + (src ++ [x]).length ≤ n := by
    rw [List.length_append]
    omega
  obtain ⟨v₁, hstore₁, hv₁⟩ := storeVec_of_le (v := v') hone
  obtain ⟨v₂, hstore₂, hv₂⟩ := storeVec_of_le (v := v) hall
  have heq : v₁.toList = v₂.toList := by
    rw [hv₁, hv₂, hv', splice_splice_next (by rw [List.Vector.toList_length]; exact hlt)]
  rw [hstore₁, hstore₂, List.Vector.toList_injective heq]

/-- A transfer to the start of an array of `n` cells: what does not fit is dropped, and the cells
after the transferred ones keep what they held.
Source: none: infrastructure
Kind: D -/
def overlay (v : List.Vector α n) (src : List α) : List.Vector α n :=
  ⟨splice v.toList 0 (src.take n), by
    rw [length_splice (by simp), v.toList_length]⟩

/-- Transferred cells are read as they were sent.
Source: none: infrastructure
Kind: L -/
theorem slice_overlay {v : List.Vector α n} {src : List α} {off len : ℕ}
    (hsrc : off + len ≤ src.length) (hn : off + len ≤ n) :
    slice (overlay v src).toList off len = slice src off len := by
  have hlist : (overlay v src).toList = src.take n ++ v.toList.drop (src.take n).length :=
    splice_zero _ _
  rw [hlist, slice_append_of_le (by rw [List.length_take]; omega), slice_take hn]

/-- Behind the transferred cells the old ones are read.
Source: none: infrastructure
Kind: L -/
theorem slice_overlay_stale {v : List.Vector α n} {src : List α} {off len : ℕ}
    (h : src.length ≤ off) : slice (overlay v src).toList off len = slice v.toList off len := by
  refine slice_splice_after ?_ (Nat.zero_le _)
  rw [List.length_take]
  omega

end fixed

/-! ## Little-endian words -/

/-- The little-endian image of `n` on `w` bytes (`n` modulo `256 ^ w`).
Source: none: infrastructure
Kind: D -/
def leBytes : ℕ → ℕ → List UInt8
  | 0, _ => []
  | w + 1, n => UInt8.ofNat n :: leBytes w (n / 256)

/-- The number a byte list denotes, least significant byte first.
Source: none: infrastructure
Kind: D -/
def leValue : List UInt8 → ℕ
  | [] => 0
  | b :: bs => b.toNat + 256 * leValue bs

/-- A number takes as many bytes as it is given.
Source: none: infrastructure
Kind: L -/
@[simp] theorem length_leBytes (w n : ℕ) : (leBytes w n).length = w := by
  induction w generalizing n with
  | zero => rfl
  | succ w ih => simp [leBytes, ih]

/-- Decoding an image gives the number back, modulo the word size.
Source: none: infrastructure
Kind: P -/
theorem leValue_leBytes (w n : ℕ) : leValue (leBytes w n) = n % 256 ^ w := by
  induction w generalizing n with
  | zero => simp [leBytes, leValue, Nat.mod_one]
  | succ w ih =>
      have hb : (UInt8.ofNat n).toNat = n % 256 := by simp
      rw [leBytes, leValue, ih, hb, Nat.pow_succ', Nat.mod_mul]

/-- A number that fits is read back from its bytes.
Source: none: infrastructure
Kind: L -/
theorem leValue_leBytes_of_lt {w n : ℕ} (h : n < 256 ^ w) : leValue (leBytes w n) = n := by
  rw [leValue_leBytes, Nat.mod_eq_of_lt h]

/-- The bytes of a word split into a low and a high part.
Source: none: infrastructure
Kind: L -/
theorem leValue_append (xs ys : List UInt8) :
    leValue (xs ++ ys) = leValue xs + 256 ^ xs.length * leValue ys := by
  induction xs with
  | nil => simp [leValue]
  | cons x xs ih =>
      rw [List.cons_append, leValue, leValue, ih, List.length_cons, Nat.pow_succ']
      ring

/-- The value of some bytes is less than the number of values they can have.
Source: none: infrastructure
Kind: L -/
theorem leValue_lt (bs : List UInt8) : leValue bs < 256 ^ bs.length := by
  induction bs with
  | nil => simp [leValue]
  | cons b bs ih =>
      have hb := b.toNat_lt
      rw [leValue, List.length_cons, Nat.pow_succ']
      omega

end CpuMonitor.Lib
