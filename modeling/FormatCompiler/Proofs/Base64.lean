import FormatCompiler.Text.Base64

/-!
Base64 there and back: what is encoded decodes to the same bytes, whatever the length of the last
group. The encoding is made of ASCII symbols and never holds a blank.
-/

namespace FormatCompiler.Text.Base64

set_option autoImplicit false

theorem value_symbol {value : Nat} (bounded : value < 64) : value? (symbol value) = some value := by
  revert value
  decide

theorem symbol_ne_pad {value : Nat} (bounded : value < 64) : symbol value ≠ pad := by
  revert value
  decide

theorem valueAt_symbol (position : Nat) {value : Nat} (bounded : value < 64) :
    valueAt position (symbol value) = .ok value := by
  rw [valueAt, value_symbol bounded]

/-- A byte is known by its number. -/
theorem toUInt8_eq {number : Nat} {byte : UInt8} (same : number = byte.toNat) :
    number.toUInt8 = byte := by
  rw [same]
  exact UInt8.ofNat_toNat

theorem first_byte (a : UInt8) (x : Nat) (high : x / 16 = a.toNat % 4) :
    (a.toNat / 4 * 4 + x / 16).toUInt8 = a := by
  apply toUInt8_eq
  omega

theorem second_byte (b : UInt8) (x y : Nat) (low : x % 16 = b.toNat / 16)
    (high : y / 4 = b.toNat % 16) : (x % 16 * 16 + y / 4).toUInt8 = b := by
  apply toUInt8_eq
  omega

/-- The four symbols of three bytes. -/
theorem join_split (a b c : UInt8) :
    join (a.toNat / 4) (a.toNat % 4 * 16 + b.toNat / 16) (b.toNat % 16 * 4 + c.toNat / 64)
      (c.toNat % 64) = [a, b, c] := by
  have middle := b.toNat_lt
  have last := c.toNat_lt
  have third : ((b.toNat % 16 * 4 + c.toNat / 64) % 4 * 64 + c.toNat % 64).toUInt8 = c := by
    apply toUInt8_eq
    omega
  rw [join, first_byte a _ (by omega), second_byte b _ _ (by omega) (by omega), third]

/-- A symbol of the last group, before any padding. -/
theorem lastGroup_symbol (start offset : Nat) (found : List (Nat × UInt8)) (firstPad : Nat)
    (rest : List UInt8) {value : Nat} (bounded : value < 64) :
    lastGroup start offset found 0 firstPad (symbol value :: rest) =
      lastGroup start (offset + 1) (found ++ [(value, symbol value)]) 0 firstPad rest := by
  simp only [lastGroup, symbol_ne_pad bounded, value_symbol bounded, Nat.lt_irrefl, ↓reduceIte]

/-- Padding, which stands behind two symbols at least. -/
theorem lastGroup_pad (start offset : Nat) (found : List (Nat × UInt8)) (pads firstPad : Nat)
    (rest : List UInt8) (behind : 2 ≤ offset) :
    lastGroup start offset found pads firstPad (pad :: rest) =
      lastGroup start (offset + 1) found (pads + 1) (if pads = 0 then offset else firstPad)
        rest := by
  have room : ¬ offset < 2 := by omega
  simp only [lastGroup, room, ↓reduceIte]

theorem closeGroup_two (start w x : Nat) (p q : UInt8) (spare : x % 16 = 0) :
    closeGroup start [(w, p), (x, q)] 2 = .ok [(w * 4 + x / 16).toUInt8] := by
  simp only [closeGroup, List.length_cons, List.length_nil, Nat.reduceAdd, Nat.reduceLT,
    Nat.reduceMod, ne_eq, not_true_eq_false, spare, ↓reduceIte]

theorem closeGroup_three (start w x y : Nat) (p q r : UInt8) (spare : y % 4 = 0) :
    closeGroup start [(w, p), (x, q), (y, r)] 1 =
      .ok [(w * 4 + x / 16).toUInt8, (x % 16 * 16 + y / 4).toUInt8] := by
  simp only [closeGroup, List.length_cons, List.length_nil, Nat.reduceAdd, Nat.reduceLT,
    Nat.reduceMod, ne_eq, not_true_eq_false, spare, ↓reduceIte]

theorem closeGroup_four (start w x y z : Nat) (p q r s : UInt8) :
    closeGroup start [(w, p), (x, q), (y, r), (z, s)] 0 = .ok (join w x y z) := by
  simp only [closeGroup, List.length_cons, List.length_nil, Nat.reduceAdd, Nat.reduceLT,
    Nat.reduceMod, ne_eq, not_true_eq_false, ↓reduceIte]

/-- A last group whose symbols and padding are known. -/
theorem decodeFrom_group (start : Nat) (done : List UInt8) (p q r s : UInt8)
    {found : List (Nat × UInt8)} {pads : Nat} {bytes : List UInt8}
    (split : lastGroup start 0 [] 0 0 [p, q, r, s] = .ok (found, pads))
    (closed : closeGroup start found pads = .ok bytes) :
    decodeFrom start done [p, q, r, s] = .ok (done.reverse ++ bytes) := by
  simp only [decodeFrom, split, closed, bind, Except.bind, pure, Except.pure]

theorem decodeFrom_one (start : Nat) (done : List UInt8) (a : UInt8) :
    decodeFrom start done (encode [a]) = .ok (done.reverse ++ [a]) := by
  have bounded := a.toNat_lt
  have high : a.toNat / 4 < 64 := by omega
  have low : a.toNat % 4 * 16 < 64 := by omega
  have spare : a.toNat % 4 * 16 % 16 = 0 := by omega
  apply decodeFrom_group
  · rw [lastGroup_symbol _ _ _ _ _ high, lastGroup_symbol _ _ _ _ _ low,
      lastGroup_pad _ _ _ _ _ _ (by omega), lastGroup_pad _ _ _ _ _ _ (by omega)]
    rfl
  · exact (closeGroup_two start _ _ _ _ spare).trans (by rw [first_byte a _ (by omega)])

theorem decodeFrom_two (start : Nat) (done : List UInt8) (a b : UInt8) :
    decodeFrom start done (encode [a, b]) = .ok (done.reverse ++ [a, b]) := by
  have bounded := b.toNat_lt
  have high : a.toNat / 4 < 64 := by have := a.toNat_lt; omega
  have middle : a.toNat % 4 * 16 + b.toNat / 16 < 64 := by omega
  have low : b.toNat % 16 * 4 < 64 := by omega
  have spare : b.toNat % 16 * 4 % 4 = 0 := by omega
  apply decodeFrom_group
  · rw [lastGroup_symbol _ _ _ _ _ high, lastGroup_symbol _ _ _ _ _ middle,
      lastGroup_symbol _ _ _ _ _ low, lastGroup_pad _ _ _ _ _ _ (by omega)]
    rfl
  · exact (closeGroup_three start _ _ _ _ _ _ spare).trans
      (by rw [first_byte a _ (by omega), second_byte b _ _ (by omega) (by omega)])

theorem decodeFrom_three (start : Nat) (done : List UInt8) (a b c : UInt8) :
    decodeFrom start done (encode [a, b, c]) = .ok (done.reverse ++ [a, b, c]) := by
  have bounded := c.toNat_lt
  have high : a.toNat / 4 < 64 := by have := a.toNat_lt; omega
  have second : a.toNat % 4 * 16 + b.toNat / 16 < 64 := by have := b.toNat_lt; omega
  have third : b.toNat % 16 * 4 + c.toNat / 64 < 64 := by omega
  have low : c.toNat % 64 < 64 := by omega
  apply decodeFrom_group
  · rw [lastGroup_symbol _ _ _ _ _ high, lastGroup_symbol _ _ _ _ _ second,
      lastGroup_symbol _ _ _ _ _ third, lastGroup_symbol _ _ _ _ _ low]
    rfl
  · exact (closeGroup_four start _ _ _ _ _ _ _ _).trans (by rw [join_split])

theorem encode_ne_nil {bytes : List UInt8} (inhabited : bytes ≠ []) : encode bytes ≠ [] := by
  fun_induction encode bytes <;> simp_all

/-- A group in front of others. -/
theorem decodeFrom_more (start : Nat) (done : List UInt8) (a b c : UInt8) (rest : List UInt8)
    (inhabited : rest ≠ []) :
    decodeFrom start done (encode (a :: b :: c :: rest)) =
      decodeFrom (start + 4) ([c, b, a] ++ done) (encode rest) := by
  have bounded := c.toNat_lt
  have high : a.toNat / 4 < 64 := by have := a.toNat_lt; omega
  have second : a.toNat % 4 * 16 + b.toNat / 16 < 64 := by have := b.toNat_lt; omega
  have third : b.toNat % 16 * 4 + c.toNat / 64 < 64 := by omega
  have low : c.toNat % 64 < 64 := by omega
  obtain ⟨next, others, more⟩ := List.exists_cons_of_ne_nil (encode_ne_nil inhabited)
  rw [encode, more, decodeFrom, valueAt_symbol _ high, valueAt_symbol _ second,
    valueAt_symbol _ third, valueAt_symbol _ low]
  simp only [bind, Except.bind, join_split]
  rfl

theorem decodeFrom_encode (start : Nat) (done bytes : List UInt8) :
    decodeFrom start done (encode bytes) = .ok (done.reverse ++ bytes) := by
  match bytes with
  | [] => simp [encode, decodeFrom]
  | [a] => exact decodeFrom_one start done a
  | [a, b] => exact decodeFrom_two start done a b
  -- a full group is a last one if nothing follows, and is then read in the other way
  | [a, b, c] => exact decodeFrom_three start done a b c
  | a :: b :: c :: d :: rest =>
    rw [decodeFrom_more start done a b c (d :: rest) (by simp), decodeFrom_encode]
    simp

theorem length_encode (bytes : List UInt8) : (encode bytes).length % 4 = 0 := by
  fun_induction encode bytes with
  | case1 => rfl
  | case2 a => simp
  | case3 a b => simp
  | case4 a b c rest ih =>
    simp only [List.length_cons]
    omega

theorem decode_encode (bytes : List UInt8) : decode (encode bytes) = .ok bytes := by
  have whole : ¬ (encode bytes).length % 4 = 1 := by
    rw [length_encode]
    decide
  simp only [decode, strayByte, whole, ↓reduceIte]
  exact decodeFrom_encode 0 [] bytes

/-- What holds of the padding and of the symbols holds of every byte of an encoding. -/
theorem forall_mem_encode {Holds : UInt8 → Prop} (padding : Holds pad)
    (symbols : ∀ value < 64, Holds (symbol value)) (bytes : List UInt8) :
    ∀ byte ∈ encode bytes, Holds byte := by
  fun_induction encode bytes with
  | case1 => simp
  | case2 a =>
    have bounded := a.toNat_lt
    simp only [List.forall_mem_cons, padding, true_and, symbols _ (show a.toNat / 4 < 64 by omega),
      symbols _ (show a.toNat % 4 * 16 < 64 by omega)]
    simp
  | case3 a b =>
    have front := a.toNat_lt
    have back := b.toNat_lt
    simp only [List.forall_mem_cons, padding, true_and, symbols _ (show a.toNat / 4 < 64 by omega),
      symbols _ (show a.toNat % 4 * 16 + b.toNat / 16 < 64 by omega),
      symbols _ (show b.toNat % 16 * 4 < 64 by omega)]
    simp
  | case4 a b c rest ih =>
    have first := a.toNat_lt
    have second := b.toNat_lt
    have third := c.toNat_lt
    simp only [List.forall_mem_cons, true_and, symbols _ (show a.toNat / 4 < 64 by omega),
      symbols _ (show a.toNat % 4 * 16 + b.toNat / 16 < 64 by omega),
      symbols _ (show b.toNat % 16 * 4 + c.toNat / 64 < 64 by omega),
      symbols _ (show c.toNat % 64 < 64 by omega)]
    exact ih

end FormatCompiler.Text.Base64
