import FormatCompiler.Text.Numeral

/-!
Numerals read back. Whatever number is written, reading its digits gives it again, and the only
way to fail is a number beyond the range asked for. Signed numerals are read exactly when they are
literals of 64-bit integers.
-/

namespace FormatCompiler.Text

set_option autoImplicit false

theorem digitValue_of_isDigit {c : Char} (digit : c.isDigit) :
    digitValue 10 c = some (c.toNat - '0'.toNat) := by
  have inside : '0' ≤ c ∧ c ≤ '9' := by
    simpa only [Char.isDigit, Bool.and_eq_true, decide_eq_true_eq, ge_iff_le, Char.le_def]
      using digit
  have upper : c.toNat ≤ 57 := UInt32.le_iff_toNat_le.mp inside.2
  have small : c.toNat - '0'.toNat < 10 := by
    change c.toNat - 48 < 10
    omega
  simp only [digitValue, inside, and_self, ↓reduceIte, Option.filter_some, small, decide_true]

theorem readDigits_of_digits (text : List Char) (value : Nat) (digits : ∀ c ∈ text, c.isDigit) :
    readDigits 10 value text = some (Nat.ofDigitChars 10 text value) := by
  induction text generalizing value with
  | nil => rfl
  | cons c rest ih =>
    have first := digitValue_of_isDigit (digits c (by simp))
    have remaining : ∀ d ∈ rest, d.isDigit := fun d member => digits d (by simp [member])
    rw [readDigits, first, Option.bind_some, ih _ remaining, Nat.ofDigitChars_cons,
      Nat.mul_comm value]

theorem isDigit_of_mem_showNat {n : Nat} {c : Char} (member : c ∈ (showNat n).toList) :
    c.isDigit := by
  rw [showNat, String.toList_ofList] at member
  exact Nat.isDigit_of_mem_toDigits (by decide) (by decide) member

theorem showNat_ne_nil (n : Nat) : (showNat n).toList ≠ [] := by
  rw [showNat, String.toList_ofList]
  exact Nat.toDigits_ne_nil

theorem mem_showInt64 {value : Int64} {c : Char} (member : c ∈ (showInt64 value).toList) :
    c.isDigit ∨ c = '-' := by
  unfold showInt64 showInt at member
  split at member
  · exact Or.inl (isDigit_of_mem_showNat member)
  · rw [String.toList_append, List.mem_append] at member
    rcases member with sign | member
    · exact Or.inr (by simpa using sign)
    · exact Or.inl (isDigit_of_mem_showNat member)

theorem showInt64_ne_nil (value : Int64) : (showInt64 value).toList ≠ [] := by
  unfold showInt64 showInt
  split
  · exact showNat_ne_nil _
  · simp

theorem readMagnitude_showNat (n : Nat) : readMagnitude 10 (showNat n).toList = some n := by
  have digits : ∀ c ∈ (showNat n).toList, c.isDigit := fun c => isDigit_of_mem_showNat
  have value := readDigits_of_digits (showNat n).toList 0 digits
  have total : Nat.ofDigitChars 10 (showNat n).toList 0 = n := by
    rw [showNat, String.toList_ofList, Nat.ofDigitChars_ten_toDigits]
  rw [total] at value
  rw [← value]
  cases shape : (showNat n).toList with
  | nil => exact absurd shape (showNat_ne_nil n)
  | cons c rest => rfl

/-- A numeral starts with a digit, so no sign is taken off it. -/
theorem showNat_eq_cons (n : Nat) :
    ∃ c rest, (showNat n).toList = c :: rest ∧ c.isDigit := by
  cases shape : (showNat n).toList with
  | nil => exact absurd shape (showNat_ne_nil n)
  | cons c rest => exact ⟨c, rest, rfl, isDigit_of_mem_showNat (n := n) (by simp [shape])⟩

theorem readNat_showNat (bound n : Nat) :
    readNat 10 bound (showNat n).toList = if n < bound then some n else none := by
  obtain ⟨c, rest, shape, digit⟩ := showNat_eq_cons n
  have unsigned : c ≠ '+' := by
    rintro rfl
    exact absurd digit (by decide)
  have magnitude := readMagnitude_showNat n
  rw [shape] at magnitude ⊢
  unfold readNat
  split
  · next tail same => exact absurd (List.cons.inj same).1 unsigned
  · simp only [magnitude, Option.filter_some, decide_eq_true_eq]

/-- A count is read back exactly when it has at most 64 bits. -/
theorem readCount_showNat (n : Nat) :
    readCount (showNat n).toList = if n < UInt64.size then some n else none :=
  readNat_showNat UInt64.size n

theorem readByte_showNat (key : UInt8) : readByte (showNat key.toNat).toList = some key := by
  have value := readNat_showNat 256 key.toNat
  have bound : key.toNat < 256 := key.toNat_lt
  rw [if_pos bound] at value
  have digits : ∀ c ∈ (showNat key.toNat).toList, c.isDigit := fun c => isDigit_of_mem_showNat
  unfold readByte
  split
  · next rest same => simpa using digits 'x' (by simp [same])
  · next rest same => simpa using digits 'X' (by simp [same])
  · rw [value, Option.map_some, Nat.toUInt8, UInt8.ofNat_toNat]

/-! ### Hexadecimal numerals -/

/-- The hexadecimal digits, with letters in either case, and their values. -/
def hexDigits : List (Char × Nat) :=
  "0123456789abcdef".toList.zipIdx ++ "ABCDEF".toList.zipIdx 10

/-- One or more hexadecimal digits, and the number that they are. -/
inductive IsHexadecimal : List Char → Nat → Prop
  | digits (digits : List (Char × Nat)) (nonempty : digits ≠ [])
      (listed : ∀ digit ∈ digits, digit ∈ hexDigits) :
      IsHexadecimal (digits.map Prod.fst)
        (digits.foldl (fun value digit => value * 16 + digit.2) 0)

theorem digitValue_of_mem_hexDigits :
    ∀ digit ∈ hexDigits, digitValue 16 digit.1 = some digit.2 := by
  decide

theorem readDigits_hexadecimal (digits : List (Char × Nat)) (value : Nat)
    (listed : ∀ digit ∈ digits, digit ∈ hexDigits) :
    readDigits 16 value (digits.map Prod.fst) =
      some (digits.foldl (fun value digit => value * 16 + digit.2) value) := by
  induction digits generalizing value with
  | nil => rfl
  | cons digit rest ih =>
    have first := digitValue_of_mem_hexDigits digit (listed digit (by simp))
    rw [List.map_cons, readDigits, first, Option.bind_some,
      ih _ fun other member => listed other (by simp [member]), List.foldl_cons]

theorem readNat_hexadecimal {source : List Char} {value bound : Nat}
    (number : IsHexadecimal source value) (fits : value < bound) :
    readNat 16 bound source = some value := by
  cases number with
  | digits digits nonempty listed =>
    have read := readDigits_hexadecimal digits 0 listed
    obtain ⟨digit, rest, rfl⟩ := List.exists_cons_of_ne_nil nonempty
    have unsigned : digit.1 ≠ '+' := by
      have table : ∀ digit ∈ hexDigits, digit.1 ≠ '+' := by decide
      exact table digit (listed digit (by simp))
    rw [List.map_cons] at read ⊢
    unfold readNat
    split
    · next tail same => exact absurd (List.cons.inj same).1 unsigned
    · simp only [readMagnitude, read, Option.filter_some, decide_eq_true_eq, fits, ↓reduceIte]

/-- A byte in hexadecimal is the byte in decimal. -/
theorem readByte_hexadecimal {mark : Char} {source : List Char} {key : UInt8}
    (isMark : mark = 'x' ∨ mark = 'X') (number : IsHexadecimal source key.toNat) :
    readByte ('0' :: mark :: source) = some key := by
  have read := readNat_hexadecimal number key.toNat_lt
  rcases isMark with rfl | rfl <;>
    rw [readByte, read, Option.map_some, Nat.toUInt8, UInt8.ofNat_toNat]

theorem isAlphanum_of_hexadecimal {source : List Char} {value : Nat}
    (number : IsHexadecimal source value) : ∀ c ∈ source, c.isAlphanum := by
  cases number with
  | digits digits nonempty listed =>
    have table : ∀ digit ∈ hexDigits, digit.1.isAlphanum := by decide
    rw [List.forall_mem_map]
    exact fun digit member => table digit (listed digit member)

theorem readInt_showInt (value : Int) : readInt (showInt value).toList = some value := by
  cases value with
  | ofNat n =>
    obtain ⟨c, rest, shape, digit⟩ := showNat_eq_cons n
    have magnitude := readMagnitude_showNat n
    rw [shape] at magnitude
    rw [showInt, shape]
    unfold readInt
    split
    · next tail same =>
      obtain ⟨rfl, rfl⟩ := List.cons.inj same
      exact absurd digit (by decide)
    · next tail same =>
      obtain ⟨rfl, rfl⟩ := List.cons.inj same
      exact absurd digit (by decide)
    · rw [magnitude, Option.map_some]
  | negSucc n =>
    have magnitude := readMagnitude_showNat (n + 1)
    rw [showInt, String.toList_append]
    change (readMagnitude 10 (showNat (n + 1)).toList).map _ = _
    rw [magnitude, Option.map_some]
    rfl

/-! ### Literals -/

/-- One or more decimal digits, and the number that they are. -/
structure IsDecimal (source : List Char) (value : Nat) : Prop where
  nonempty : source ≠ []
  digits : ∀ c ∈ source, c.isDigit
  number : Nat.ofDigitChars 10 source 0 = value

/-- A decimal numeral of a 64-bit integer. A sign may stand before its digits. -/
inductive IsLiteral : List Char → Int64 → Prop
  | unsigned {source : List Char} {value : Int64} {magnitude : Nat}
      (decimal : IsDecimal source magnitude) (same : value.toInt = magnitude) :
      IsLiteral source value
  | plus {source : List Char} {value : Int64} {magnitude : Nat}
      (decimal : IsDecimal source magnitude) (same : value.toInt = magnitude) :
      IsLiteral ('+' :: source) value
  | minus {source : List Char} {value : Int64} {magnitude : Nat}
      (decimal : IsDecimal source magnitude) (same : value.toInt = -magnitude) :
      IsLiteral ('-' :: source) value

theorem isDigit_of_digitValue {c : Char} {digit : Nat} (found : digitValue 10 c = some digit) :
    c.isDigit := by
  obtain ⟨value, small⟩ := Option.filter_eq_some_iff.mp found
  rw [decide_eq_true_eq] at small
  split at value
  · next inside =>
    simpa only [Char.isDigit, Bool.and_eq_true, decide_eq_true_eq, ge_iff_le, Char.le_def]
      using inside
  · -- The letters follow nine.
    split at value
    · cases value
      omega
    · split at value
      · cases value
        omega
      · cases value

theorem isDigit_of_readDigits {text : List Char} {start value : Nat}
    (found : readDigits 10 start text = some value) : ∀ c ∈ text, c.isDigit := by
  induction text generalizing start with
  | nil => simp
  | cons c rest ih =>
    obtain ⟨digit, first, others⟩ := Option.bind_eq_some_iff.mp found
    exact List.forall_mem_cons.mpr ⟨isDigit_of_digitValue first, ih others⟩

theorem readMagnitude_eq_some_iff {source : List Char} {value : Nat} :
    readMagnitude 10 source = some value ↔ IsDecimal source value := by
  cases source with
  | nil => exact iff_of_false (by simp [readMagnitude]) fun decimal => decimal.nonempty rfl
  | cons c rest =>
    rw [readMagnitude]
    constructor
    · intro found
      have digits := isDigit_of_readDigits found
      rw [readDigits_of_digits _ _ digits] at found
      exact ⟨by simp, digits, Option.some.inj found⟩
    · intro decimal
      rw [readDigits_of_digits _ _ decimal.digits, decimal.number]
    all_goals simp

/-- The 64-bit integer that a number is. -/
theorem int64_eq_some_iff {number : Option Int} {value : Int64} :
    (number.filter fitsInt64).map Int64.ofInt = some value ↔ number = some value.toInt := by
  have lower := value.le_toInt
  have upper := value.toInt_lt
  rw [Option.map_eq_some_iff]
  constructor
  · rintro ⟨found, kept, rfl⟩
    obtain ⟨rfl, fits⟩ := Option.filter_eq_some_iff.mp kept
    simp only [fitsInt64, Bool.and_eq_true, decide_eq_true_eq, Int64.toInt_minValue,
      Int64.toInt_maxValue] at fits
    rw [Int64.toInt_ofInt_of_le (by omega) (by omega)]
  · rintro rfl
    refine ⟨value.toInt, Option.filter_eq_some_iff.mpr ⟨rfl, ?_⟩, Int64.ofInt_toInt value⟩
    simp only [fitsInt64, Bool.and_eq_true, decide_eq_true_eq, Int64.toInt_minValue,
      Int64.toInt_maxValue]
    omega

theorem readInt_eq_some_iff {source : List Char} {value : Int64} :
    readInt source = some value.toInt ↔ IsLiteral source value := by
  constructor
  · intro found
    unfold readInt at found
    split at found
    all_goals
      obtain ⟨magnitude, read, same⟩ := Option.map_eq_some_iff.mp found
      have decimal := readMagnitude_eq_some_iff.mp read
    · exact .plus decimal same.symm
    · exact .minus decimal same.symm
    · exact .unsigned decimal same.symm
  · intro literal
    cases literal with
    | plus decimal same =>
      rw [readInt, readMagnitude_eq_some_iff.mpr decimal, Option.map_some, same]
      rfl
    | minus decimal same =>
      rw [readInt, readMagnitude_eq_some_iff.mpr decimal, Option.map_some, same]
      rfl
    | unsigned decimal same =>
      unfold readInt
      split
      · exact absurd (decimal.digits '+' (by simp)) (by decide)
      · exact absurd (decimal.digits '-' (by simp)) (by decide)
      · rw [readMagnitude_eq_some_iff.mpr decimal, Option.map_some, same]
        rfl

/-- Exactly the literals are read, each as the number it denotes. -/
theorem readInt64_eq_some_iff {source : List Char} {value : Int64} :
    readInt64 source = some value ↔ IsLiteral source value := by
  rw [readInt64, int64_eq_some_iff, readInt_eq_some_iff]

theorem IsLiteral.mem {source : List Char} {value : Int64} (literal : IsLiteral source value) :
    ∀ c ∈ source, c.isDigit ∨ c = '+' ∨ c = '-' := by
  cases literal with
  | unsigned decimal same => exact fun c member => .inl (decimal.digits c member)
  | plus decimal same =>
    exact List.forall_mem_cons.mpr ⟨.inr (.inl rfl), fun c member => .inl (decimal.digits c member)⟩
  | minus decimal same =>
    exact List.forall_mem_cons.mpr ⟨.inr (.inr rfl), fun c member => .inl (decimal.digits c member)⟩

theorem IsLiteral.ne_nil {source : List Char} {value : Int64} (literal : IsLiteral source value) :
    source ≠ [] := by
  cases literal with
  | unsigned decimal same => exact decimal.nonempty
  | plus decimal same => simp
  | minus decimal same => simp

theorem readInt64_showInt64 (value : Int64) : readInt64 (showInt64 value).toList = some value := by
  rw [readInt64, int64_eq_some_iff, showInt64, readInt_showInt]

end FormatCompiler.Text
