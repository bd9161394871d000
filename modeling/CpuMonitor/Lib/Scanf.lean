import CpuMonitor.Lib.Text

/-!
# Formatted input

`fgets` and `sscanf` of the C library, on bytes. Nothing here names a program.

* **A line** `fgets`: the bytes up to the first newline, cut at the size of the buffer. What
  stands in the buffer before the cut is read as it is in the file (`bytes_of_fgets`).
* **A format** `Directive`, `parseFormat`: white space, a byte that stands for itself, `%*s`,
  `%*c`, and the two conversions of 64-bit numbers, each with or without `*`.
* **The scan** `Directive.run`, `scan`: the values assigned until the first directive that does
  not match. Their number is what `sscanf` returns, except that `EOF` counts as none.
* **Numbers that are there** are read back: `scanInt_decimalInt`, and a whole row of them in
  `scan_numberFields`, provided that no further digit follows.
* **Numbers that are not there** are not read: a conversion takes white space, signs and digits
  only, and after the first one it takes two bytes at least. Before a byte that is none of these,
  a short text therefore stops a long row of conversions (`length_scan_numberFields_le`).
-/

namespace CpuMonitor.Lib

/-! ## Lines -/

/-- The bytes up to the first newline, which is kept.
Source: none: infrastructure
Kind: D -/
def firstLine : List UInt8 → List UInt8
  | [] => []
  | b :: bs => if b = 10 then [b] else b :: firstLine bs

/-- The string in the buffer after `fgets(buffer, size, file)`; `none` is the null pointer that
is returned at the end of the file.
Source: none: infrastructure
Kind: D -/
def fgets (size : ℕ) (content : List UInt8) : Option CString :=
  if content = [] then none
  else some ⟨((firstLine content).take (size - 1)).takeWhile (· != 0), by
    intro b hb
    simpa using List.mem_takeWhile_imp hb⟩

/-- A front part without a newline is in the first line.
Source: none: infrastructure
Kind: L -/
theorem firstLine_append {head : List UInt8} (h : ∀ b ∈ head, b ≠ 10) (rest : List UInt8) :
    firstLine (head ++ rest) = head ++ firstLine rest := by
  induction head with
  | nil => rfl
  | cons b head ih =>
      rw [List.cons_append, firstLine, if_neg (h b (by simp)), ih fun c hc => h c (by simp [hc])]
      rfl

/-- The first line is a front part of the content.
Source: none: infrastructure
Kind: L -/
theorem firstLine_isPrefix (content : List UInt8) : firstLine content <+: content := by
  induction content with
  | nil => exact List.prefix_refl _
  | cons b bs ih =>
      rw [firstLine]
      split_ifs
      · exact ⟨bs, rfl⟩
      · exact List.cons_prefix_cons.mpr ⟨rfl, ih⟩

/-- A beginning of the first line that fits in the buffer is read whole; what follows it is cut
somewhere.
Source: none: infrastructure
Kind: L -/
theorem bytes_of_fgets {size : ℕ} {head : List UInt8} (hne : head ≠ [])
    (hbytes : ∀ b ∈ head, b ≠ 0 ∧ b ≠ 10) (hsize : head.length < size) (rest : List UInt8) :
    ∃ text rest', fgets size (head ++ rest) = some text ∧ text.bytes = head ++ rest' ∧
      rest' <+: rest := by
  have hcut : ((firstLine (head ++ rest)).take (size - 1)).takeWhile (· != 0) =
      head ++ ((firstLine rest).take (size - 1 - head.length)).takeWhile (· != 0) := by
    rw [firstLine_append fun b hb => (hbytes b hb).2, List.take_append,
      List.take_of_length_le (by omega),
      List.takeWhile_append_of_pos fun b hb => by simpa using (hbytes b hb).1]
  refine ⟨_, _, if_neg (by simp [hne]), hcut, ?_⟩
  exact (List.takeWhile_prefix _).trans ((List.take_prefix _ _).trans (firstLine_isPrefix rest))

/-! ## Formats -/

/-- The conversions of 64-bit numbers.
Source: none: infrastructure
Kind: D -/
inductive Conversion
  /-- `%lld` -/
  | signed
  /-- `%llu` -/
  | unsigned
  deriving DecidableEq

/-- A part of a format.
Source: none: infrastructure
Kind: D -/
inductive Directive
  /-- White space in the format: any amount of it in the input, also none. -/
  | white
  /-- A byte that stands for itself. -/
  | literal (b : UInt8)
  /-- `%*s` -/
  | skipString
  /-- `%*c` -/
  | skipChar
  /-- A number, which is stored unless the conversion has a `*`. -/
  | number (conversion : Conversion) (assigned : Bool)
  deriving DecidableEq

/-- The directives of a format with the conversions above; every other character stands for
itself.
Source: none: infrastructure
Kind: D -/
def parseFormat : List Char → List Directive
  | '%' :: 'l' :: 'l' :: 'd' :: cs => .number .signed true :: parseFormat cs
  | '%' :: 'l' :: 'l' :: 'u' :: cs => .number .unsigned true :: parseFormat cs
  | '%' :: '*' :: 'l' :: 'l' :: 'u' :: cs => .number .unsigned false :: parseFormat cs
  | '%' :: '*' :: 's' :: cs => .skipString :: parseFormat cs
  | '%' :: '*' :: 'c' :: cs => .skipChar :: parseFormat cs
  | ' ' :: cs => .white :: parseFormat cs
  | c :: cs => .literal (UInt8.ofNat c.toNat) :: parseFormat cs
  | [] => []

/-! ## The scan -/

/-- `isspace` in the C locale.
Source: none: infrastructure
Kind: D -/
def isSpace (b : UInt8) : Bool := b == 32 || (9 ≤ b && b ≤ 13)

/-- `isdigit`.
Source: none: infrastructure
Kind: D -/
def isDigit (b : UInt8) : Bool := 48 ≤ b && b ≤ 57

/-- The input after its leading white space.
Source: none: infrastructure
Kind: D -/
def skipWhite (input : List UInt8) : List UInt8 := input.dropWhile isSpace

/-- The number with these decimal digits.
Source: none: infrastructure
Kind: D -/
def digitsValue (digits : List UInt8) : ℕ := digits.foldl (fun n b => 10 * n + (b.toNat - 48)) 0

/-- Whether a number starts with a minus sign, and the input after its sign.
Source: none: infrastructure
Kind: D -/
def takeSign : List UInt8 → Bool × List UInt8
  | [] => (false, [])
  | b :: bs =>
      if b = 45 then (true, bs)
      else if b = 43 then (false, bs)
      else (false, b :: bs)

/-- White space, an optional sign and one digit at least: the number and the input after it.
Source: none: infrastructure
Kind: D -/
def scanInt (input : List UInt8) : Option (ℤ × List UInt8) :=
  let (negative, body) := takeSign (skipWhite input)
  let digits := body.takeWhile isDigit
  if digits = [] then none
  else some (if negative then -digitsValue digits else digitsValue digits,
    body.dropWhile isDigit)

/-- What a conversion makes of a number: one out of range becomes the nearest value (the
unsigned one: the greatest), and a negative one is negated as an unsigned number.
Source: none: infrastructure
Kind: D -/
def Conversion.value : Conversion → ℤ → ℤ
  | .signed, z => max (-2 ^ 63) (min z (2 ^ 63 - 1))
  | .unsigned, z => if 2 ^ 64 ≤ z.natAbs then 2 ^ 64 - 1 else z % 2 ^ 64

/-- The values one directive assigns and the input it leaves; `none` if it does not match.
Source: none: infrastructure
Kind: D -/
def Directive.run : Directive → List UInt8 → Option (List ℤ × List UInt8)
  | .white, input => some ([], skipWhite input)
  | .literal b, input =>
      match input with
      | [] => none
      | c :: rest => if c = b then some ([], rest) else none
  | .skipString, input =>
      if skipWhite input = [] then none
      else some ([], (skipWhite input).dropWhile fun b => !isSpace b)
  | .skipChar, input =>
      match input with
      | [] => none
      | _ :: rest => some ([], rest)
  | .number conversion assigned, input =>
      (scanInt input).map fun (z, rest) => (if assigned then [conversion.value z] else [], rest)

/-- The values assigned up to the first directive that does not match.
Source: none: infrastructure
Kind: D -/
def scan : List Directive → List UInt8 → List ℤ
  | [], _ => []
  | d :: ds, input =>
      match d.run input with
      | none => []
      | some (values, rest) => values ++ scan ds rest

/-- `sscanf`: the values it assigns.
Source: none: infrastructure
Kind: D -/
def sscanf (buffer : CString) (format : String) : List ℤ :=
  scan (parseFormat format.toList) buffer.bytes

/-- Numbers that follow each other in a format, each after white space.
Source: none: infrastructure
Kind: D -/
def numberFields (fields : List (Conversion × Bool)) : List Directive :=
  fields.flatMap fun field => [.white, .number field.1 field.2]

/-- Numbers printed in a row, each after a blank.
Source: none: infrastructure
Kind: D -/
def printFields (numbers : List ℤ) : List UInt8 := numbers.flatMap fun z => 32 :: decimalInt z

/-- Fields are printed one after the other.
Source: none: infrastructure
Kind: L -/
theorem printFields_append (xs ys : List ℤ) :
    printFields (xs ++ ys) = printFields xs ++ printFields ys :=
  List.flatMap_append

/-! ## White space -/

/-- White space that was skipped is not there a second time.
Source: none: infrastructure
Kind: L -/
theorem skipWhite_skipWhite (input : List UInt8) :
    skipWhite (skipWhite input) = skipWhite input :=
  List.dropWhile_idempotent _ input

/-- A space is skipped.
Source: none: infrastructure
Kind: L -/
theorem skipWhite_cons_of_isSpace {b : UInt8} (h : isSpace b = true) (input : List UInt8) :
    skipWhite (b :: input) = skipWhite input := by
  simp [skipWhite, h]

/-- Any other byte stops the skipping.
Source: none: infrastructure
Kind: L -/
theorem skipWhite_cons_of_not {b : UInt8} (h : isSpace b = false) (input : List UInt8) :
    skipWhite (b :: input) = b :: input := by
  simp [skipWhite, h]

/-- A conversion skips white space itself.
Source: none: infrastructure
Kind: L -/
theorem scanInt_skipWhite (input : List UInt8) : scanInt (skipWhite input) = scanInt input := by
  unfold scanInt
  rw [skipWhite_skipWhite]

/-- The first of several numbers.
Source: none: infrastructure
Kind: L -/
theorem scan_numberFields_cons (field : Conversion × Bool) (fields : List (Conversion × Bool))
    (input : List UInt8) :
    scan (numberFields (field :: fields)) input =
      match scanInt input with
      | none => []
      | some (z, rest) =>
          (if field.2 then [field.1.value z] else []) ++ scan (numberFields fields) rest := by
  have hfields : numberFields (field :: fields) =
      .white :: .number field.1 field.2 :: numberFields fields := rfl
  rw [hfields]
  simp only [scan, Directive.run, List.nil_append, scanInt_skipWhite]
  cases scanInt input <;> rfl

/-- A field for a number skips white space by itself.
Source: none: infrastructure
Kind: L -/
theorem scan_numberFields_skipWhite (field : Conversion × Bool)
    (fields : List (Conversion × Bool)) (input : List UInt8) :
    scan (numberFields (field :: fields)) (skipWhite input) =
      scan (numberFields (field :: fields)) input := by
  rw [scan_numberFields_cons, scan_numberFields_cons, scanInt_skipWhite]

/-! ## Numbers that are there -/

/-- No digit comes next: a number that ends here is complete.
Source: none: infrastructure
Kind: D -/
def EndsNumber (rest : List UInt8) : Prop := ∀ b ∈ rest.head?, isDigit b = false

/-- What ends a number still ends it when the input is cut off later.
Source: none: infrastructure
Kind: L -/
theorem EndsNumber.of_isPrefix {rest rest' : List UInt8} (h : EndsNumber rest)
    (hcut : rest' <+: rest) : EndsNumber rest' := by
  obtain ⟨more, rfl⟩ := hcut
  cases rest' with
  | nil => simp [EndsNumber]
  | cons b rest' => exact h

/-- What is left when the digits have been taken does not start with one.
Source: none: infrastructure
Kind: L -/
theorem endsNumber_dropWhile (input : List UInt8) : EndsNumber (input.dropWhile isDigit) := by
  intro b hb
  have hne : input.dropWhile isDigit ≠ [] := by
    intro hnil
    rw [hnil] at hb
    cases hb
  rw [List.head?_eq_some_head hne, Option.mem_some_iff] at hb
  rw [← hb]
  exact List.head_dropWhile_not isDigit hne

/-- A printed number consists of digits.
Source: none: infrastructure
Kind: L -/
theorem isDigit_of_mem_decimal {n : ℕ} {b : UInt8} (h : b ∈ decimal n) : isDigit b = true := by
  have hdigit : ∀ d < 10, isDigit (UInt8.ofNat (48 + d)) = true := by decide
  unfold decimal at h
  split_ifs at h with h0
  · rw [List.mem_singleton] at h
    subst h
    decide
  · obtain ⟨d, hd, rfl⟩ := List.mem_map.mp h
    exact hdigit d (Nat.digits_lt_base (by norm_num) (List.mem_reverse.mp hd))

/-- A printed number has at least one digit.
Source: none: infrastructure
Kind: L -/
theorem decimal_ne_nil (n : ℕ) : decimal n ≠ [] := by
  unfold decimal
  split_ifs with h0
  · simp
  · simpa using Nat.digits_ne_nil_iff_ne_zero.mpr h0

/-- The value of printed digits is the number that they are the digits of.
Source: none: infrastructure
Kind: L -/
theorem digitsValue_map {digits : List ℕ} (h : ∀ d ∈ digits, d < 10) :
    digitsValue (digits.reverse.map fun d => UInt8.ofNat (48 + d)) = Nat.ofDigits 10 digits := by
  induction digits with
  | nil => rfl
  | cons d digits ih =>
      have hd : d < 10 := h d (by simp)
      have hdigits := ih fun e he => h e (by simp [he])
      rw [digitsValue] at hdigits ⊢
      rw [List.reverse_cons, List.map_append, List.foldl_append, hdigits, Nat.ofDigits_cons]
      simp only [List.map_cons, List.map_nil, List.foldl_cons, List.foldl_nil,
        UInt8.toNat_ofNat']
      omega

/-- The digits of a printed number are those of the number.
Source: none: infrastructure
Kind: L -/
theorem digitsValue_decimal (n : ℕ) : digitsValue (decimal n) = n := by
  unfold decimal
  split_ifs with h0
  · rw [h0]
    rfl
  · rw [digitsValue_map fun d hd => Nat.digits_lt_base (by norm_num) hd, Nat.ofDigits_digits]

/-- The width of a printed number.
Source: none: infrastructure
Kind: L -/
theorem length_decimal_le {n w : ℕ} (hw : 0 < w) (h : n < 10 ^ w) : (decimal n).length ≤ w := by
  unfold decimal
  split_ifs with h0
  · exact hw
  · rw [List.length_map, List.length_reverse]
    exact (Nat.digits_length_le_iff (by norm_num) n).mpr h

/-- A number below a power of ten has at most that many digits, and a sign.
Source: none: infrastructure
Kind: L -/
theorem length_decimalInt_le {z : ℤ} {w : ℕ} (hw : 0 < w) (h : z.natAbs < 10 ^ w) :
    (decimalInt z).length ≤ w + 1 := by
  have hsign : (signBytes (decide (z < 0))).length ≤ 1 := by
    unfold signBytes
    split_ifs <;> simp
  rw [decimalInt, List.length_append]
  have hdigits := length_decimal_le hw h
  omega

/-- The width of a row of numbers of bounded width.
Source: none: infrastructure
Kind: L -/
theorem length_printFields_le {w : ℕ} {numbers : List ℤ}
    (h : ∀ z ∈ numbers, (decimalInt z).length ≤ w) :
    (printFields numbers).length ≤ numbers.length * (w + 1) := by
  induction numbers with
  | nil => simp [printFields]
  | cons z numbers ih =>
      have hz := h z (by simp)
      have hnumbers := ih fun y hy => h y (by simp [hy])
      rw [printFields] at hnumbers ⊢
      rw [List.flatMap_cons, List.length_append, List.length_cons, List.length_cons,
        Nat.succ_mul]
      omega

/-- A byte of a number is neither a terminator nor a newline.
Source: none: infrastructure
Kind: L -/
theorem Numeric.plain {b : UInt8} (h : Numeric b) : b ≠ 0 ∧ b ≠ 10 := by
  have hlt := h.lt.1
  constructor <;> rintro rfl <;> revert hlt <;> decide

/-- Printed fields have neither a terminator nor a newline in them.
Source: none: infrastructure
Kind: L -/
theorem printFields_plain {numbers : List ℤ} {b : UInt8} (h : b ∈ printFields numbers) :
    b ≠ 0 ∧ b ≠ 10 := by
  obtain ⟨z, -, hb⟩ := List.mem_flatMap.mp h
  rcases List.mem_cons.mp hb with rfl | hb
  · decide
  · exact (numeric_decimalInt hb).plain

/-- A number without a sign is printed as a natural number.
Source: none: infrastructure
Kind: L -/
@[simp] theorem decimalInt_natCast (n : ℕ) : decimalInt (n : ℤ) = decimal n := by
  simp [decimalInt, signBytes]

/-- A printed number starts with its sign or with a digit.
Source: none: infrastructure
Kind: L -/
theorem takeSign_decimalInt (z : ℤ) (rest : List UInt8) :
    takeSign (skipWhite (decimalInt z ++ rest)) =
      (decide (z < 0), decimal z.natAbs ++ rest) := by
  rw [decimalInt]
  cases hz : decide (z < 0) with
  | true => rfl
  | false =>
      obtain ⟨b, bs, hbs⟩ := List.exists_cons_of_ne_nil (decimal_ne_nil z.natAbs)
      have hb : isDigit b = true := isDigit_of_mem_decimal (by rw [hbs]; simp)
      have hplain : ∀ b, isDigit b = true → isSpace b = false ∧ b ≠ 45 ∧ b ≠ 43 := by decide +kernel
      obtain ⟨hspace, hminus, hplus⟩ := hplain b hb
      simp [signBytes, hbs, skipWhite, hspace, takeSign, hminus, hplus]

/-- **A printed number is read back** if no further digit follows it.
Source: none: infrastructure
Kind: L -/
theorem scanInt_decimalInt (z : ℤ) {rest : List UInt8} (h : EndsNumber rest) :
    scanInt (decimalInt z ++ rest) = some (z, rest) := by
  have htake : rest.takeWhile isDigit = [] ∧ rest.dropWhile isDigit = rest := by
    cases rest with
    | nil => exact ⟨rfl, rfl⟩
    | cons b rest =>
        have hb : isDigit b = false := h b (by simp)
        simp [hb]
  have hdigits : ∀ b ∈ decimal z.natAbs, isDigit b = true := fun b => isDigit_of_mem_decimal
  have hvalue : (if decide (z < 0) = true then -(z.natAbs : ℤ) else z.natAbs) = z := by
    simp only [decide_eq_true_iff]
    split_ifs <;> omega
  simp only [scanInt, takeSign_decimalInt, List.takeWhile_append_of_pos hdigits,
    List.dropWhile_append_of_pos hdigits, htake, List.append_nil, decimal_ne_nil, if_false,
    digitsValue_decimal, hvalue]

/-- The next number of a row starts with a blank, so the one before ends where it should.
Source: none: infrastructure
Kind: L -/
theorem EndsNumber.printFields_append {rest : List UInt8} (h : EndsNumber rest)
    (numbers : List ℤ) : EndsNumber (printFields numbers ++ rest) := by
  cases numbers with
  | nil => exact h
  | cons z numbers =>
      intro b hb
      cases hb
      decide

/-- **A row of printed numbers is read back**: each field of the format gets its number.
Source: none: infrastructure
Kind: L -/
theorem scan_numberFields {rest : List UInt8} (h : EndsNumber rest) :
    ∀ {fields : List (Conversion × Bool)} {numbers : List ℤ}, fields.length = numbers.length →
      scan (numberFields fields) (printFields numbers ++ rest) =
        (fields.zip numbers).flatMap fun p => if p.1.2 then [p.1.1.value p.2] else []
  | [], [], _ => rfl
  | field :: fields, z :: numbers, hlen => by
      have hz : scanInt (printFields (z :: numbers) ++ rest) =
          some (z, printFields numbers ++ rest) := by
        rw [printFields, List.flatMap_cons, List.append_assoc, List.cons_append,
          ← scanInt_skipWhite, skipWhite_cons_of_isSpace (by decide), scanInt_skipWhite]
        exact scanInt_decimalInt z (h.printFields_append numbers)
      rw [scan_numberFields_cons, hz]
      simp only [scan_numberFields h (Nat.succ.inj hlen), List.zip_cons_cons, List.flatMap_cons]

/-- A signed conversion keeps every value of a `long`.
Source: none: infrastructure
Kind: L -/
theorem Conversion.value_signed {z : ℤ} (h : -2 ^ 63 ≤ z) (h' : z < 2 ^ 63) :
    Conversion.signed.value z = z := by
  rw [Conversion.value, min_eq_left (by omega), max_eq_right h]

/-- A row of `%lld`s.
Source: none: infrastructure
Kind: L -/
theorem scan_signedFields {rest : List UInt8} (h : EndsNumber rest) {numbers : List ℤ}
    (hrange : ∀ z ∈ numbers, -2 ^ 63 ≤ z ∧ z < 2 ^ 63) :
    scan (numberFields (List.replicate numbers.length (.signed, true)))
      (printFields numbers ++ rest) = numbers := by
  rw [scan_numberFields h (by simp)]
  clear h
  induction numbers with
  | nil => rfl
  | cons z numbers ih =>
      obtain ⟨hlo, hhi⟩ := hrange z (by simp)
      rw [List.length_cons, List.replicate_succ, List.zip_cons_cons, List.flatMap_cons,
        ih fun y hy => hrange y (by simp [hy]), if_pos rfl, Conversion.value_signed hlo hhi]
      rfl

/-! ## Numbers that are not there -/

/-- A byte that a conversion of a number can take.
Source: none: infrastructure
Kind: D -/
def TakenByNumber (b : UInt8) : Prop := isSpace b = true ∨ isDigit b = true ∨ b = 45 ∨ b = 43

/-- An optional sign stands in front of what is left after it is taken.
Source: none: infrastructure
Kind: L -/
theorem exists_sign (input : List UInt8) :
    ∃ sign, input = sign ++ (takeSign input).2 ∧ ∀ b ∈ sign, b = 45 ∨ b = 43 := by
  cases input with
  | nil => exact ⟨[], rfl, by simp⟩
  | cons b bs =>
      rw [takeSign]
      split_ifs with hminus hplus
      · exact ⟨[b], rfl, by simp [hminus]⟩
      · exact ⟨[b], rfl, by simp [hplus]⟩
      · exact ⟨[], rfl, by simp⟩

/-- **What a conversion takes**: white space, perhaps a sign, and digits, as many as there are.
Source: none: infrastructure
Kind: L -/
theorem parts_of_scanInt {input rest : List UInt8} {z : ℤ} (h : scanInt input = some (z, rest)) :
    ∃ white sign digits, input = white ++ sign ++ digits ++ rest ∧
      (∀ b ∈ white, isSpace b = true) ∧ (∀ b ∈ sign, b = 45 ∨ b = 43) ∧
      (∀ b ∈ digits, isDigit b = true) ∧ digits ≠ [] ∧ EndsNumber rest := by
  obtain ⟨sign, hsign, hbytes⟩ := exists_sign (skipWhite input)
  unfold scanInt at h
  set body := (takeSign (skipWhite input)).2 with hbody
  simp only [← hbody] at h
  have hdigits : body.takeWhile isDigit ≠ [] := by
    intro hnil
    rw [if_pos hnil] at h
    cases h
  rw [if_neg hdigits] at h
  obtain ⟨-, rfl⟩ := Prod.mk.inj (Option.some.inj h)
  refine ⟨input.takeWhile isSpace, sign, body.takeWhile isDigit, ?_,
    fun b => List.mem_takeWhile_imp, hbytes, fun b => List.mem_takeWhile_imp, hdigits,
    endsNumber_dropWhile body⟩
  rw [List.append_assoc, List.takeWhile_append_dropWhile, List.append_assoc, ← hsign]
  exact (List.takeWhile_append_dropWhile).symm

/-- It takes one byte at least, and two if the first is not a digit.
Source: none: infrastructure
Kind: L -/
theorem taken_of_scanInt {input rest : List UInt8} {z : ℤ} (h : scanInt input = some (z, rest)) :
    ∃ taken, input = taken ++ rest ∧ (∀ b ∈ taken, TakenByNumber b) ∧ 1 ≤ taken.length ∧
      (EndsNumber input → 2 ≤ taken.length) ∧ EndsNumber rest := by
  obtain ⟨white, sign, digits, rfl, hwhite, hsign, hdigits, hne, hends⟩ := parts_of_scanInt h
  have hpos : 1 ≤ digits.length := List.length_pos_iff.mpr hne
  refine ⟨_, rfl, ?_, ?_, ?_, hends⟩
  · intro b hb
    rcases List.mem_append.mp hb with hb | hb
    · rcases List.mem_append.mp hb with hb | hb
      · exact .inl (hwhite b hb)
      · exact .inr (.inr (hsign b hb))
    · exact .inr (.inl (hdigits b hb))
  · rw [List.length_append]
    omega
  · intro hinput
    rw [List.length_append]
    -- without white space and sign the input would start with the first digit
    rcases Nat.eq_zero_or_pos (white ++ sign).length with hzero | hsome
    · exfalso
      obtain ⟨b, bs, rfl⟩ := List.exists_cons_of_ne_nil hne
      rw [List.length_eq_zero_iff.mp hzero] at hinput
      have hhead : isDigit b = false := hinput b rfl
      rw [hdigits b (by simp)] at hhead
      cases hhead
    · omega

/-- A conversion stops before a byte it cannot take.
Source: none: infrastructure
Kind: L -/
theorem before_of_scanInt {before after rest : List UInt8} {stop : UInt8} {z : ℤ}
    (hstop : ¬TakenByNumber stop) (h : scanInt (before ++ stop :: after) = some (z, rest)) :
    ∃ before', rest = before' ++ stop :: after ∧ before'.length + 1 ≤ before.length ∧
      (EndsNumber (before ++ stop :: after) → before'.length + 2 ≤ before.length) ∧
      EndsNumber rest := by
  obtain ⟨taken, hinput, hbytes, hone, htwo, hends⟩ := taken_of_scanInt h
  have hbefore : ∃ before', before = taken ++ before' ∧ rest = before' ++ stop :: after := by
    rcases List.append_eq_append_iff.mp hinput with ⟨more, htaken, hmore⟩ | hbefore
    · cases more with
      | nil => exact ⟨[], by simpa using htaken.symm, hmore.symm⟩
      | cons b more =>
          obtain ⟨rfl, -⟩ := List.cons.inj hmore
          exact absurd (hbytes stop (by rw [htaken]; simp)) hstop
    · exact hbefore
  obtain ⟨before', rfl, rfl⟩ := hbefore
  refine ⟨before', rfl, ?_, ?_, hends⟩
  · rw [List.length_append]
    omega
  · intro hinputEnds
    have := htwo hinputEnds
    rw [List.length_append]
    omega

section stopped

variable {after : List UInt8} {stop : UInt8} (hstop : ¬TakenByNumber stop)
  (last : Conversion × Bool)

include hstop

/-- Behind a number, every further one takes two bytes.
Source: none: infrastructure
Kind: L -/
theorem length_scan_of_endsNumber : ∀ (fields : List (Conversion × Bool)) (before : List UInt8),
    EndsNumber (before ++ stop :: after) → before.length < 2 * (fields.length + 1) →
      (scan (numberFields (fields ++ [last])) (before ++ stop :: after)).length ≤
        fields.countP Prod.snd
  | [], before, hends, hlen => by
      rw [List.nil_append, scan_numberFields_cons]
      cases hscan : scanInt (before ++ stop :: after) with
      | none => simp
      | some p =>
          obtain ⟨before', -, -, htwo, -⟩ := before_of_scanInt hstop hscan
          have := htwo hends
          simp only [List.length_nil] at hlen
          omega
  | field :: fields, before, hends, hlen => by
      rw [List.cons_append, scan_numberFields_cons]
      cases hscan : scanInt (before ++ stop :: after) with
      | none => simp
      | some p =>
          obtain ⟨before', hrest, -, htwo, hends'⟩ := before_of_scanInt hstop hscan
          have hle := htwo hends
          rw [List.length_cons] at hlen
          have ih := length_scan_of_endsNumber fields before' (hrest ▸ hends') (by omega)
          rw [← hrest] at ih
          rw [List.length_append, List.countP_cons]
          cases hassigned : field.2 <;> simp <;> omega

/-- **A short text stops a row of conversions**: with fewer bytes before the stop than two for
each but one of them, the last one assigns nothing.
Source: none: infrastructure
Kind: L -/
theorem length_scan_numberFields_le (field : Conversion × Bool)
    (fields : List (Conversion × Bool)) {before : List UInt8}
    (hlen : before.length ≤ 2 * (fields.length + 1)) :
    (scan (numberFields (field :: fields ++ [last])) (before ++ stop :: after)).length ≤
      (field :: fields).countP Prod.snd := by
  rw [List.cons_append, scan_numberFields_cons]
  cases hscan : scanInt (before ++ stop :: after) with
  | none => simp
  | some p =>
      obtain ⟨before', hrest, hone, -, hends⟩ := before_of_scanInt hstop hscan
      have hle := length_scan_of_endsNumber hstop last fields before' (hrest ▸ hends) (by omega)
      rw [← hrest] at hle
      rw [List.length_append, List.countP_cons]
      cases hassigned : field.2 <;> simp <;> omega

end stopped

end CpuMonitor.Lib
