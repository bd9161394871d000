import Mathlib

/-!
# C strings and formatted numbers

The text a C program prints, as bytes. Nothing here names a program.

* **Strings** `CString`: bytes without a NUL, so that `strlen` is their number and the stored
  object is the bytes and one terminator (`CString.stored`). `CString.snprintf` cuts a text at the
  size of the buffer it is printed into.
* **Numbers** `decimal` (`%u`), `decimalInt` (`%d`), `fixed6` (`%f`: six digits after the point,
  rounded to nearest, ties to even, from the exact value of the number).
* Every byte of a printed number is a digit, a point or a sign (`numeric_decimal`,
  `numeric_fixed6`), hence never a NUL.
* **Lines** `unlines`: a text in which every line ends with a newline, and how to tell from its
  pieces that a text is one (`splitOn_eq_iff`).
-/

namespace CpuMonitor.Lib

/-! ## Strings -/

/-- The bytes of an ASCII text.
Source: none: infrastructure
Kind: D -/
def ascii (s : String) : List UInt8 := s.toList.map fun c => UInt8.ofNat c.toNat

/-- A C string: its bytes up to the terminator.
Source: none: infrastructure
Kind: D -/
@[ext] structure CString where
  bytes : List UInt8
  nul_free : ∀ b ∈ bytes, b ≠ 0
  deriving DecidableEq

/-- A string literal.
Source: none: infrastructure
Kind: D -/
def CString.lit (s : String) (h : ∀ b ∈ ascii s, b ≠ 0) : CString := ⟨ascii s, h⟩

namespace CString

/-- `strlen`.
Source: none: infrastructure
Kind: D -/
def strlen (s : CString) : ℕ := s.bytes.length

/-- The object in memory: the bytes and the terminator.
Source: none: infrastructure
Kind: D -/
def stored (s : CString) : List UInt8 := s.bytes ++ [0]

/-- A string is stored with one byte more, its terminator.
Source: none: infrastructure
Kind: L -/
@[simp] theorem length_stored (s : CString) : s.stored.length = s.strlen + 1 := by
  simp [stored, strlen]

/-- The text of several arguments, one after the other.
Source: none: infrastructure
Kind: D -/
def concat (parts : List CString) : CString :=
  ⟨(parts.map CString.bytes).flatten, by
    intro b hb
    obtain ⟨bytes, hmem, hb⟩ := List.mem_flatten.mp hb
    obtain ⟨part, -, rfl⟩ := List.mem_map.mp hmem
    exact part.nul_free b hb⟩

/-- What `snprintf` leaves in a buffer of `size` bytes: the text, cut so that the terminator
fits.
Source: none: infrastructure
Kind: D -/
def snprintf (size : ℕ) (text : CString) : CString :=
  ⟨text.bytes.take (size - 1), fun b hb => text.nul_free b (List.mem_of_mem_take hb)⟩

/-- `snprintf` leaves room for the terminator.
Source: none: infrastructure
Kind: L -/
theorem strlen_snprintf_lt {size : ℕ} (h : 0 < size) (text : CString) :
    (snprintf size text).strlen < size := by
  simp only [strlen, snprintf, List.length_take]
  omega

/-- In the stored object the terminator is the only NUL.
Source: none: infrastructure
Kind: L -/
theorem stored_eq_zero_iff (s : CString) {i : ℕ} (h : i < s.stored.length) :
    s.stored[i] = 0 ↔ i = s.strlen := by
  have hlen : i < s.strlen + 1 := by simpa using h
  rcases Nat.lt_or_ge i s.bytes.length with hlt | hge
  · have hget : s.stored[i] = s.bytes[i] := List.getElem_append_left hlt
    rw [hget]
    exact ⟨fun h0 => absurd h0 (s.nul_free _ (List.getElem_mem hlt)),
      fun h0 => absurd hlt (by rw [h0]; exact lt_irrefl _)⟩
  · have hi : i = s.strlen := le_antisymm (Nat.lt_succ_iff.mp hlen) hge
    subst hi
    simp [stored, strlen]

/-- Without its NULs the stored object is the string.
Source: none: infrastructure
Kind: L -/
theorem filter_stored (s : CString) : s.stored.filter (· ≠ 0) = s.bytes := by
  have hbytes : s.bytes.filter (· ≠ 0) = s.bytes :=
    List.filter_eq_self.mpr fun b hb => by simpa using s.nul_free b hb
  rw [stored, List.filter_append, hbytes]
  simp

/-- A string is known from its stored bytes.
Source: none: infrastructure
Kind: L -/
theorem stored_injective {s t : CString} (h : s.stored = t.stored) : s = t := by
  ext1
  exact List.append_cancel_right h

end CString

/-! ## Printed numbers -/

/-- A byte that occurs in a printed number: `-`, `.` or a digit.
Source: none: infrastructure
Kind: D -/
def Numeric (b : UInt8) : Prop := b = 45 ∨ b = 46 ∨ ∃ d < 10, b = UInt8.ofNat (48 + d)

/-- A printed number contains no letter and no NUL.
Source: none: infrastructure
Kind: L -/
theorem Numeric.lt {b : UInt8} (h : Numeric b) : 44 < b ∧ b < 58 := by
  rcases h with rfl | rfl | ⟨d, hd, rfl⟩
  · decide
  · decide
  · interval_cases d <;> decide

/-- `%u`.
Source: none: infrastructure
Kind: D -/
def decimal (n : ℕ) : List UInt8 :=
  if n = 0 then [48] else (Nat.digits 10 n).reverse.map fun d => UInt8.ofNat (48 + d)

/-- The last `w` decimal digits of `n`, most significant first.
Source: none: infrastructure
Kind: D -/
def lastDigits : ℕ → ℕ → List UInt8
  | 0, _ => []
  | w + 1, n => lastDigits w (n / 10) ++ [UInt8.ofNat (48 + n % 10)]

/-- A printed natural number consists of bytes of numbers.
Source: none: infrastructure
Kind: L -/
theorem numeric_decimal {n : ℕ} {b : UInt8} (h : b ∈ decimal n) : Numeric b := by
  unfold decimal at h
  split_ifs at h with h0
  · rw [List.mem_singleton] at h
    exact .inr (.inr ⟨0, by norm_num, h⟩)
  · obtain ⟨d, hd, rfl⟩ := List.mem_map.mp h
    exact .inr (.inr ⟨d, Nat.digits_lt_base (by norm_num) (List.mem_reverse.mp hd), rfl⟩)

/-- So do its last digits.
Source: none: infrastructure
Kind: L -/
theorem numeric_lastDigits {w n : ℕ} {b : UInt8} (h : b ∈ lastDigits w n) : Numeric b := by
  induction w generalizing n with
  | zero => simp [lastDigits] at h
  | succ w ih =>
      rw [lastDigits, List.mem_append, List.mem_singleton] at h
      rcases h with h | rfl
      · exact ih h
      · exact .inr (.inr ⟨n % 10, Nat.mod_lt _ (by norm_num), rfl⟩)

/-- The quotient of two naturals, rounded to the nearest one, ties to even.
Source: none: infrastructure
Kind: D -/
def divNearestEven (n d : ℕ) : ℕ :=
  if 2 * (n % d) < d then n / d
  else if d < 2 * (n % d) then n / d + 1
  else n / d + n / d % 2

/-- The sign of a printed number.
Source: none: infrastructure
Kind: D -/
def signBytes (negative : Bool) : List UInt8 := if negative then [45] else []

/-- `%d`.
Source: none: infrastructure
Kind: D -/
def decimalInt (z : ℤ) : List UInt8 := signBytes (decide (z < 0)) ++ decimal z.natAbs

/-- `%f` of a finite number: its absolute value in millionths, rounded, with the point six digits
from the end.
Source: none: infrastructure
Kind: D -/
def fixed6 (q : ℚ) : List UInt8 :=
  let millionths := divNearestEven (q.num.natAbs * 10 ^ 6) q.den
  signBytes (decide (q < 0)) ++ decimal (millionths / 10 ^ 6) ++ [46] ++ lastDigits 6 millionths

/-- So does a sign.
Source: none: infrastructure
Kind: L -/
theorem numeric_signBytes {negative : Bool} {b : UInt8} (h : b ∈ signBytes negative) :
    Numeric b := by
  unfold signBytes at h
  split_ifs at h
  · exact .inl (List.mem_singleton.mp h)
  · simp at h

/-- So does a printed integer.
Source: none: infrastructure
Kind: L -/
theorem numeric_decimalInt {z : ℤ} {b : UInt8} (h : b ∈ decimalInt z) : Numeric b := by
  rcases List.mem_append.mp h with h | h
  · exact numeric_signBytes h
  · exact numeric_decimal h

/-- So does a number with six decimals.
Source: none: infrastructure
Kind: L -/
theorem numeric_fixed6 {q : ℚ} {b : UInt8} (h : b ∈ fixed6 q) : Numeric b := by
  simp only [fixed6, List.mem_append, List.mem_singleton] at h
  rcases h with ((h | h) | rfl) | h
  · exact numeric_signBytes h
  · exact numeric_decimal h
  · exact .inr (.inl rfl)
  · exact numeric_lastDigits h

/-- A half is printed as a half, and a tie in the seventh digit goes to the even neighbour. -/
example : fixed6 (-5 / 2) = ascii "-2.500000" ∧ fixed6 (3 / 2000000) = ascii "0.000002" ∧
    fixed6 (5 / 2000000) = ascii "0.000002" := by decide +kernel

/-- The text of a printed number.
Source: none: infrastructure
Kind: D -/
def CString.ofNumeric (bytes : List UInt8) (h : ∀ b ∈ bytes, Numeric b) : CString :=
  ⟨bytes, fun b hb h0 => absurd (h b hb).lt.1 (by rw [h0]; decide)⟩

/-- `%d`, as a string.
Source: none: infrastructure
Kind: D -/
def CString.ofInt (z : ℤ) : CString := .ofNumeric (decimalInt z) fun _ => numeric_decimalInt

/-- `%f`, as a string.
Source: none: infrastructure
Kind: D -/
def CString.ofRat (q : ℚ) : CString := .ofNumeric (fixed6 q) fun _ => numeric_fixed6

/-! ## Lines -/

/-- The byte that ends a line.
Source: none: infrastructure
Kind: D -/
def newline : UInt8 := 10

/-- The text of some lines.
Source: none: infrastructure
Kind: D -/
def unlines (lines : List (List UInt8)) : List UInt8 :=
  (lines.map fun line => line ++ [newline]).flatten

/-- No lines, no text.
Source: none: infrastructure
Kind: L -/
@[simp] theorem unlines_nil : unlines [] = [] := rfl

/-- The first line, a newline, and the text of the other lines.
Source: none: infrastructure
Kind: L -/
@[simp] theorem unlines_cons (line : List UInt8) (lines : List (List UInt8)) :
    unlines (line :: lines) = line ++ newline :: unlines lines := by
  simp [unlines]

/-- The pieces of a text of lines are the lines, and nothing behind the last newline.
Source: none: infrastructure
Kind: L -/
theorem splitOn_unlines {lines : List (List UInt8)} (h : ∀ line ∈ lines, newline ∉ line) :
    (unlines lines).splitOn newline = lines ++ [[]] := by
  induction lines with
  | nil => rfl
  | cons line lines ih =>
      have hline : ∀ b ∈ line, (b == newline) = false := by
        intro b hb
        rw [beq_eq_false_iff_ne]
        rintro rfl
        exact h line List.mem_cons_self hb
      rw [unlines_cons, List.splitOn_eq_splitOnP,
        List.splitOnP_append_cons_of_forall_mem hline newline (beq_self_eq_true newline),
        ← List.splitOn_eq_splitOnP, ih fun l hl => h l (List.mem_cons_of_mem _ hl),
        List.cons_append]

/-- **A text whose pieces are some lines is the text of these lines.**
Source: none: infrastructure
Kind: P -/
theorem splitOn_eq_iff {lines : List (List UInt8)} (h : ∀ line ∈ lines, newline ∉ line)
    (text : List UInt8) : text.splitOn newline = lines ++ [[]] ↔ text = unlines lines := by
  constructor
  · intro hsplit
    have htext : [newline].intercalate (text.splitOn newline) = text :=
      List.intercalate_splitOn newline
    rw [hsplit, ← splitOn_unlines h, List.intercalate_splitOn] at htext
    exact htext.symm
  · rintro rfl
    exact splitOn_unlines h

end CpuMonitor.Lib
