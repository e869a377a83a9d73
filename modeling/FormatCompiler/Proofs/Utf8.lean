import FormatCompiler.Text.Utf8

/-!
UTF-8 there and back: the bytes of a text decode to that text. A character is decoded from its own
bytes, whatever follows them, by the length of its sequence.
-/

namespace FormatCompiler.Text.Utf8

set_option autoImplicit false

theorem isTail_iff (b : UInt8) : isTail b = true ↔ 0x80 ≤ b.toNat ∧ b.toNat ≤ 0xBF := by
  simp [isTail, UInt8.le_iff_toNat_le]

theorem isSecondOfThree_iff (a b : UInt8) :
    isSecondOfThree a b = true ↔ 0xE0 ≤ a.toNat ∧ a.toNat ≤ 0xEF ∧
      0x80 ≤ b.toNat ∧ b.toNat ≤ 0xBF ∧
      (a.toNat = 0xE0 → 0xA0 ≤ b.toNat) ∧ (a.toNat = 0xED → b.toNat ≤ 0x9F) := by
  simp only [isSecondOfThree, Bool.or_eq_true, Bool.and_eq_true, beq_iff_eq, decide_eq_true_eq,
    UInt8.le_iff_toNat_le, ← UInt8.toNat_inj, isTail_iff]
  simp only [UInt8.reduceToNat]
  omega

theorem isSecondOfFour_iff (a b : UInt8) :
    isSecondOfFour a b = true ↔ 0xF0 ≤ a.toNat ∧ a.toNat ≤ 0xF4 ∧
      0x80 ≤ b.toNat ∧ b.toNat ≤ 0xBF ∧
      (a.toNat = 0xF0 → 0x90 ≤ b.toNat) ∧ (a.toNat = 0xF4 → b.toNat ≤ 0x8F) := by
  simp only [isSecondOfFour, Bool.or_eq_true, Bool.and_eq_true, beq_iff_eq, decide_eq_true_eq,
    UInt8.le_iff_toNat_le, ← UInt8.toNat_inj, isTail_iff]
  simp only [UInt8.reduceToNat]
  omega

variable (position : Nat) (done : List Char) (a b c d : UInt8) (rest : List UInt8)

theorem decodeFrom_one (lead : a.toNat < 0x80) :
    decodeFrom position done (a :: rest) =
      decodeFrom (position + 1) (character a.toNat :: done) rest := by
  have first : a < 0x80 := UInt8.lt_iff_toNat_lt.mpr lead
  rw [decodeFrom.eq_def]
  simp only [first, ↓reduceIte]

theorem decodeFrom_two (lead : 0xC2 ≤ a.toNat ∧ a.toNat ≤ 0xDF) (second : isTail b = true) :
    decodeFrom position done (a :: b :: rest) =
      decodeFrom (position + 2)
        (character ((a.toNat - 0xC0) * 64 + (b.toNat - 0x80)) :: done) rest := by
  have one : ¬ a < 0x80 := by
    simp only [UInt8.lt_iff_toNat_lt, UInt8.reduceToNat]
    omega
  have two : 0xC2 ≤ a ∧ a ≤ 0xDF := by
    simpa only [UInt8.le_iff_toNat_le, UInt8.reduceToNat] using lead
  rw [decodeFrom.eq_def]
  simp only [one, two, second, and_self, ↓reduceIte]

theorem decodeFrom_three (second : isSecondOfThree a b = true) (third : isTail c = true) :
    decodeFrom position done (a :: b :: c :: rest) =
      decodeFrom (position + 3)
        (character ((a.toNat - 0xE0) * 4096 + (b.toNat - 0x80) * 64 + (c.toNat - 0x80)) :: done)
        rest := by
  have lead := (isSecondOfThree_iff a b).mp second
  have one : ¬ a < 0x80 := by
    simp only [UInt8.lt_iff_toNat_lt, UInt8.reduceToNat]
    omega
  have two : ¬ (0xC2 ≤ a ∧ a ≤ 0xDF) := by
    simp only [UInt8.le_iff_toNat_le, UInt8.reduceToNat]
    omega
  have three : 0xE0 ≤ a ∧ a ≤ 0xEF := by
    simp only [UInt8.le_iff_toNat_le, UInt8.reduceToNat]
    omega
  rw [decodeFrom.eq_def]
  simp only [one, two, three, second, third, and_self, ↓reduceIte]

theorem decodeFrom_four (second : isSecondOfFour a b = true) (third : isTail c = true)
    (fourth : isTail d = true) :
    decodeFrom position done (a :: b :: c :: d :: rest) =
      decodeFrom (position + 4)
        (character ((a.toNat - 0xF0) * 262144 + (b.toNat - 0x80) * 4096 + (c.toNat - 0x80) * 64 +
          (d.toNat - 0x80)) :: done) rest := by
  have lead := (isSecondOfFour_iff a b).mp second
  have one : ¬ a < 0x80 := by
    simp only [UInt8.lt_iff_toNat_lt, UInt8.reduceToNat]
    omega
  have two : ¬ (0xC2 ≤ a ∧ a ≤ 0xDF) := by
    simp only [UInt8.le_iff_toNat_le, UInt8.reduceToNat]
    omega
  have three : ¬ (0xE0 ≤ a ∧ a ≤ 0xEF) := by
    simp only [UInt8.le_iff_toNat_le, UInt8.reduceToNat]
    omega
  have four : 0xF0 ≤ a ∧ a ≤ 0xF4 := by
    simp only [UInt8.le_iff_toNat_le, UInt8.reduceToNat]
    omega
  rw [decodeFrom.eq_def]
  simp only [one, two, three, four, second, third, fourth, and_self, ↓reduceIte]

theorem character_toNat {bits : Nat} (c : Char) (same : bits = c.toNat) : character bits = c := by
  rw [same, character, Char.ofNat_toNat]

theorem toNat_ofNat {number : Nat} (bounded : number < 256) : (UInt8.ofNat number).toNat = number :=
  UInt8.toNat_ofNat_of_lt' bounded

/-- A character is decoded from its own bytes. -/
theorem decodeFrom_char (position : Nat) (done : List Char) (c : Char) (rest : List UInt8) :
    ∃ next, decodeFrom position done (String.utf8EncodeChar c ++ rest) =
      decodeFrom next (c :: done) rest := by
  have valid : c.toNat < 55296 ∨ 57343 < c.toNat ∧ c.toNat < 1114112 := c.valid
  have number : c.val.toNat = c.toNat := rfl
  unfold String.utf8EncodeChar
  simp only [number]
  by_cases one : c.toNat ≤ 127
  · have byte := toNat_ofNat (show c.toNat < 256 by omega)
    have lead : (UInt8.ofNat c.toNat).toNat < 0x80 := by omega
    refine ⟨position + 1, ?_⟩
    rw [if_pos one, List.singleton_append, decodeFrom_one _ _ _ _ lead, byte, character_toNat c rfl]
  by_cases two : c.toNat ≤ 2047
  · have first := toNat_ofNat (show c.toNat / 64 % 32 + 192 < 256 by omega)
    have second := toNat_ofNat (show c.toNat % 64 + 128 < 256 by omega)
    refine ⟨position + 2, ?_⟩
    rw [if_neg one, if_pos two, List.cons_append, List.singleton_append,
      decodeFrom_two _ _ _ _ _ (by omega) ((isTail_iff _).mpr (by omega)), first, second,
      character_toNat c (by omega)]
  by_cases three : c.toNat ≤ 65535
  · have first := toNat_ofNat (show c.toNat / 4096 % 16 + 224 < 256 by omega)
    have second := toNat_ofNat (show c.toNat / 64 % 64 + 128 < 256 by omega)
    have third := toNat_ofNat (show c.toNat % 64 + 128 < 256 by omega)
    refine ⟨position + 3, ?_⟩
    rw [if_neg one, if_neg two, if_pos three, List.cons_append, List.cons_append,
      List.singleton_append,
      decodeFrom_three _ _ _ _ _ _ ((isSecondOfThree_iff _ _).mpr (by omega))
        ((isTail_iff _).mpr (by omega)), first, second, third, character_toNat c (by omega)]
  · have first := toNat_ofNat (show c.toNat / 262144 % 8 + 240 < 256 by omega)
    have second := toNat_ofNat (show c.toNat / 4096 % 64 + 128 < 256 by omega)
    have third := toNat_ofNat (show c.toNat / 64 % 64 + 128 < 256 by omega)
    have fourth := toNat_ofNat (show c.toNat % 64 + 128 < 256 by omega)
    refine ⟨position + 4, ?_⟩
    rw [if_neg one, if_neg two, if_neg three, List.cons_append, List.cons_append,
      List.cons_append, List.singleton_append,
      decodeFrom_four _ _ _ _ _ _ _ ((isSecondOfFour_iff _ _).mpr (by omega))
        ((isTail_iff _).mpr (by omega)) ((isTail_iff _).mpr (by omega)), first, second, third,
      fourth, character_toNat c (by omega)]

theorem decodeFrom_encode (position : Nat) (done text : List Char) :
    decodeFrom position done (encode text) = .ok (done.reverse ++ text) := by
  induction text generalizing position done with
  | nil => simp [encode, decodeFrom]
  | cons c text ih =>
    obtain ⟨next, decoded⟩ := decodeFrom_char position done c (encode text)
    change decodeFrom position done (String.utf8EncodeChar c ++ encode text) = _
    rw [decoded, ih]
    simp

theorem decode_encode (text : List Char) : decode (encode text) = .ok text :=
  decodeFrom_encode 0 [] text

/-- ASCII text has its characters for bytes. -/
theorem encode_ascii (bytes : List UInt8) (ascii : ∀ byte ∈ bytes, byte.toNat < 0x80) :
    encode (bytes.map fun byte => Char.ofNat byte.toNat) = bytes := by
  induction bytes with
  | nil => rfl
  | cons byte bytes ih =>
    obtain ⟨first, others⟩ := List.forall_mem_cons.mp ascii
    have numbers : ∀ n < 128, (Char.ofNat n).val.toNat = n := by decide
    have one : String.utf8EncodeChar (Char.ofNat byte.toNat) = [byte] := by
      unfold String.utf8EncodeChar
      simp only [numbers _ first]
      rw [if_pos (by omega), UInt8.ofNat_toNat]
    change String.utf8EncodeChar (Char.ofNat byte.toNat) ++ encode (bytes.map _) = _
    rw [one, ih others, List.singleton_append]

theorem size_cons (c : Char) (rest : List Char) : size (c :: rest) = c.utf8Size + size rest := rfl

theorem size_append (first second : List Char) :
    size (first ++ second) = size first + size second := by
  induction first with
  | nil => exact (Nat.zero_add _).symm
  | cons c rest ih =>
    rw [List.cons_append, size_cons, size_cons, ih]
    omega

theorem length_encode (text : List Char) : (encode text).length = size text := by
  induction text with
  | nil => rfl
  | cons c rest ih =>
    change (String.utf8EncodeChar c ++ encode rest).length = _
    rw [List.length_append, ih, String.length_utf8EncodeChar, size_cons]

end FormatCompiler.Text.Utf8
