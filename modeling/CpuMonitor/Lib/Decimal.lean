import CpuMonitor.Lib.Scanf

/-!
# Printed fractions read back

What `%f` has printed (`fixed6`), read as a decimal fraction. Nothing here names a program.

* `readFixed` — white space, an optional sign, digits, a point and digits, and nothing behind them:
  the number;
* `readFixed_fixed6` — the number read is the one printed, in whole millionths;
* `abs_millionths_sub_le` — it is within half a millionth of the number that was to be printed;
* `length_fixed6_le` — the width of the text.
-/

namespace CpuMonitor.Lib

/-! ## Digits -/

/-- There are as many digits as asked for.
Source: none: infrastructure
Kind: L -/
theorem length_lastDigits (w n : ℕ) : (lastDigits w n).length = w := by
  induction w generalizing n with
  | zero => rfl
  | succ w ih => rw [lastDigits, List.length_append, ih, List.length_singleton]

/-- All of them are digits.
Source: none: infrastructure
Kind: L -/
theorem isDigit_of_mem_lastDigits {w n : ℕ} {b : UInt8} (h : b ∈ lastDigits w n) :
    isDigit b = true := by
  have hdigit : ∀ d < 10, isDigit (UInt8.ofNat (48 + d)) = true := by decide
  induction w generalizing n with
  | zero => exact absurd h List.not_mem_nil
  | succ w ih =>
      rw [lastDigits, List.mem_append, List.mem_singleton] at h
      rcases h with h | rfl
      · exact ih h
      · exact hdigit _ (Nat.mod_lt _ (by norm_num))

/-- The value of digits with one more behind them.
Source: none: infrastructure
Kind: L -/
theorem digitsValue_snoc (digits : List UInt8) (d : ℕ) (hd : d < 10) :
    digitsValue (digits ++ [UInt8.ofNat (48 + d)]) = 10 * digitsValue digits + d := by
  rw [digitsValue, List.foldl_append]
  simp only [List.foldl_cons, List.foldl_nil, UInt8.toNat_ofNat']
  rw [digitsValue]
  omega

/-- The last `w` digits of a number are the digits of its rest modulo `10 ^ w`.
Source: none: infrastructure
Kind: L -/
theorem digitsValue_lastDigits (w n : ℕ) : digitsValue (lastDigits w n) = n % 10 ^ w := by
  induction w generalizing n with
  | zero => rw [pow_zero, Nat.mod_one]; rfl
  | succ w ih =>
      rw [lastDigits, digitsValue_snoc _ _ (Nat.mod_lt _ (by norm_num)), ih, pow_succ',
        Nat.mod_mul, Nat.add_comm]

/-! ## Rounding to a whole number -/

/-- A quotient is its integral part and the remainder over the divisor.
Source: none: infrastructure
Kind: L -/
theorem div_add_mod_div (n : ℕ) {d : ℕ} (hd : 0 < d) :
    ((n / d : ℕ) : ℚ) + ((n % d : ℕ) : ℚ) / d = n / d := by
  have hpos : (d : ℚ) ≠ 0 := by exact_mod_cast hd.ne'
  have hsplit : (n : ℚ) = d * (n / d : ℕ) + (n % d : ℕ) := by
    exact_mod_cast (Nat.div_add_mod n d).symm
  rw [hsplit, add_div, mul_div_cancel_left₀ _ hpos]

/-- The quotient that is rounded to nearest is off by half at most.
Source: none: infrastructure
Kind: P -/
theorem abs_divNearestEven_sub_le (n : ℕ) {d : ℕ} (hd : 0 < d) :
    |(divNearestEven n d : ℚ) - n / d| ≤ 1 / 2 := by
  have hpos : (0 : ℚ) < d := by exact_mod_cast hd
  have hquot := (div_add_mod_div n hd).symm
  have hrest : (n % d : ℕ) < (d : ℚ) := by exact_mod_cast Nat.mod_lt n hd
  have hrest0 : (0 : ℚ) ≤ (n % d : ℕ) := Nat.cast_nonneg _
  rw [hquot, abs_le]
  unfold divNearestEven
  split_ifs with hlow hhigh
  · have hlow' : 2 * ((n % d : ℕ) : ℚ) < d := by exact_mod_cast hlow
    have hfrac : ((n % d : ℕ) : ℚ) / d ≤ 1 / 2 := by rw [div_le_div_iff₀ hpos two_pos]; linarith
    have hfrac0 : 0 ≤ ((n % d : ℕ) : ℚ) / d := div_nonneg hrest0 hpos.le
    constructor <;> linarith
  · have hhigh' : (d : ℚ) < 2 * ((n % d : ℕ) : ℚ) := by exact_mod_cast hhigh
    have hfrac : 1 / 2 ≤ ((n % d : ℕ) : ℚ) / d := by rw [div_le_div_iff₀ two_pos hpos]; linarith
    have hfrac1 : ((n % d : ℕ) : ℚ) / d ≤ 1 := (div_le_one hpos).mpr hrest.le
    push_cast
    constructor <;> linarith
  · -- a tie: both neighbours are half away
    have htie : 2 * ((n % d : ℕ) : ℚ) = d := by exact_mod_cast (by omega : 2 * (n % d) = d)
    have hfrac : ((n % d : ℕ) : ℚ) / d = 1 / 2 := by
      rw [div_eq_div_iff hpos.ne' two_ne_zero]
      linarith
    have hbit : ((n / d % 2 : ℕ) : ℚ) = 0 ∨ ((n / d % 2 : ℕ) : ℚ) = 1 := by
      rcases Nat.mod_two_eq_zero_or_one (n / d) with h | h
      · exact .inl (by rw [h]; rfl)
      · exact .inr (by rw [h]; rfl)
    push_cast
    rw [hfrac]
    rcases hbit with hbit | hbit
    · rw [hbit]
      constructor <;> linarith
    · rw [hbit]
      constructor <;> linarith

/-! ## The number in a text -/

/-- The number that a text of the form `-123.456` stands for.
Source: none: infrastructure
Kind: D -/
def readFixed (text : List UInt8) : Option ℚ :=
  let (negative, body) := takeSign (skipWhite text)
  let whole := body.takeWhile isDigit
  match body.dropWhile isDigit with
  | [] => none
  | point :: fraction =>
      if point = 46 ∧ whole ≠ [] ∧ fraction ≠ [] ∧ fraction.all isDigit then
        some ((if negative then -1 else 1) *
          (digitsValue whole + digitsValue fraction / 10 ^ fraction.length))
      else none

/-- What `%f` prints, in millionths.
Source: none: infrastructure
Kind: D -/
def millionths (q : ℚ) : ℕ := divNearestEven (q.num.natAbs * 10 ^ 6) q.den

/-- The six decimals of a number are sign, integral part, point and the last six digits of its
millionths.
Source: none: infrastructure
Kind: L -/
theorem fixed6_eq (q : ℚ) :
    fixed6 q = signBytes (decide (q < 0)) ++
      (decimal (millionths q / 10 ^ 6) ++ 46 :: lastDigits 6 (millionths q)) := by
  rw [fixed6, millionths]
  simp

/-- Digits, a point and digits.
Source: none: infrastructure
Kind: L -/
theorem readFixed_digits (whole n : ℕ) {w : ℕ} (hw : 0 < w) :
    readFixed (decimal whole ++ 46 :: lastDigits w n) =
      some (whole + ((n % 10 ^ w : ℕ) : ℚ) / 10 ^ w) := by
  have hwhole : ∀ b ∈ decimal whole, isDigit b = true := fun b hb => isDigit_of_mem_decimal hb
  have htake := takeSign_decimalInt (whole : ℤ) (46 :: lastDigits w n)
  rw [decimalInt_natCast, decide_eq_false (not_lt.mpr (Int.natCast_nonneg _))] at htake
  have hfraction : (lastDigits w n).all isDigit = true :=
    List.all_eq_true.mpr fun b hb => isDigit_of_mem_lastDigits hb
  have hne : lastDigits w n ≠ [] := by
    rw [← List.length_pos_iff, length_lastDigits]
    exact hw
  have hpoint : isDigit 46 = false := by decide
  rw [readFixed, htake]
  simp only [Int.natAbs_natCast, List.takeWhile_append_of_pos hwhole,
    List.dropWhile_append_of_pos hwhole, List.takeWhile_cons, List.dropWhile_cons, hpoint,
    Bool.false_eq_true, if_false, List.append_nil, decimal_ne_nil, hne, hfraction, ne_eq,
    not_false_eq_true, and_self, if_true, digitsValue_decimal, digitsValue_lastDigits,
    length_lastDigits, one_mul]

/-- **The number that was printed is read back**, in millionths.
Source: none: infrastructure
Kind: P -/
theorem readFixed_fixed6 {q : ℚ} (hq : 0 ≤ q) :
    readFixed (fixed6 q) = some ((millionths q : ℚ) / (10 ^ 6 : ℕ)) := by
  have hsign : signBytes (decide (q < 0)) = [] := by
    rw [decide_eq_false (not_lt.mpr hq)]
    rfl
  rw [fixed6_eq, hsign, List.nil_append, readFixed_digits _ _ (by decide),
    ← div_add_mod_div (millionths q) (d := 10 ^ 6) (by positivity), Nat.cast_pow, Nat.cast_ofNat]

/-- The millionths of a number are nearest to it.
Source: none: infrastructure
Kind: L -/
theorem millionths_eq {q : ℚ} (hq : 0 ≤ q) :
    |(millionths q : ℚ) - q * 10 ^ 6| ≤ 1 / 2 := by
  have hnum : ((q.num.natAbs * 10 ^ 6 : ℕ) : ℚ) / q.den = q * 10 ^ 6 := by
    have hnat : (q.num.natAbs : ℚ) = q.num := by
      rw [Nat.cast_natAbs, abs_of_nonneg (Rat.num_nonneg.mpr hq)]
    rw [Nat.cast_mul, hnat, mul_div_right_comm, Rat.num_div_den, Nat.cast_pow, Nat.cast_ofNat]
  rw [← hnum]
  exact abs_divNearestEven_sub_le _ q.den_pos

/-- **And it is the number itself up to half a millionth.**
Source: none: infrastructure
Kind: P -/
theorem abs_millionths_sub_le {q : ℚ} (hq : 0 ≤ q) :
    |(millionths q : ℚ) / (10 ^ 6 : ℕ) - q| ≤ 1 / (2 * 10 ^ 6) := by
  have herror := abs_le.mp (millionths_eq hq)
  rw [abs_le, Nat.cast_pow, Nat.cast_ofNat]
  constructor
  · linarith [herror.1]
  · linarith [herror.2]

/-- The width of a printed fraction.
Source: none: infrastructure
Kind: L -/
theorem length_fixed6_le {q : ℚ} (hq : 0 ≤ q) {w : ℕ} (hw : 0 < w) (h : q + 1 ≤ 10 ^ w) :
    (fixed6 q).length ≤ w + 7 := by
  have hsign : signBytes (decide (q < 0)) = [] := by
    rw [decide_eq_false (not_lt.mpr hq)]
    rfl
  have hwhole : millionths q / 10 ^ 6 < 10 ^ w := by
    rw [Nat.div_lt_iff_lt_mul (by norm_num)]
    have herror := (abs_le.mp (millionths_eq hq)).2
    have hlt : (millionths q : ℚ) < 10 ^ w * 10 ^ 6 := by linarith
    exact_mod_cast hlt
  rw [fixed6_eq, hsign, List.nil_append, List.length_append, List.length_cons, length_lastDigits]
  have := length_decimal_le hw hwhole
  omega

end CpuMonitor.Lib
