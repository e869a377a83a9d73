import FormatCompiler.Diagnostic.Span
import FormatCompiler.Proofs.ListingFixedPoint
import FormatCompiler.Proofs.Utf8

/-!
Where a stretch of a file is. It is found by going over the lines with what is left of the offset;
told by the bytes of the file, it starts at a byte that is no line feed and has none in it. Its line
is then the one after the feeds in front of it, and it starts as far into the line as the last of
these feeds is behind.
-/

namespace FormatCompiler

set_option autoImplicit false

namespace Text.Utf8

/-- The byte of a line feed. -/
def feed : UInt8 := 0x0A

theorem encode_append (first second : List Char) :
    encode (first ++ second) = encode first ++ encode second :=
  List.flatMap_append

/-- In the bytes of a character that takes more than one, each has its highest bit set. -/
theorem feed_mem_utf8EncodeChar {c : Char} : feed ∈ String.utf8EncodeChar c ↔ c = '\n' := by
  constructor
  · intro member
    have number : c.val.toNat = c.toNat := rfl
    have ten : feed.toNat = 10 := rfl
    have high : ∀ number, 128 ≤ number → number < 256 → feed ≠ UInt8.ofNat number := by
      intro number least bound same
      have value := congrArg UInt8.toNat same
      rw [toNat_ofNat bound] at value
      omega
    unfold String.utf8EncodeChar at member
    simp only [number] at member
    split at member
    · have value := congrArg UInt8.toNat (List.mem_singleton.mp member)
      rw [toNat_ofNat (by omega)] at value
      exact Char.toNat_inj.mp (value.symm.trans ten)
    · exfalso
      split at member
      · simp only [List.mem_cons, List.not_mem_nil, or_false] at member
        rcases member with same | same
        all_goals exact high _ (by omega) (by omega) same
      split at member
      · simp only [List.mem_cons, List.not_mem_nil, or_false] at member
        rcases member with same | same | same
        all_goals exact high _ (by omega) (by omega) same
      · simp only [List.mem_cons, List.not_mem_nil, or_false] at member
        rcases member with same | same | same | same
        all_goals exact high _ (by omega) (by omega) same
  · rintro rfl
    decide

theorem feed_mem_encode {text : List Char} : feed ∈ encode text ↔ '\n' ∈ text := by
  simp only [encode, List.mem_flatMap, feed_mem_utf8EncodeChar, exists_eq_right]

end Text.Utf8

namespace Text

theorem splitFeeds_eq_splitOn (line text : List Char) :
    splitFeeds line text = (text.splitOn '\n').modifyHead (line.reverse ++ ·) := by
  induction text generalizing line with
  | nil => simp [splitFeeds]
  | cons c rest ih =>
    rw [splitFeeds, List.splitOn_cons_eq_if_modifyHead, ih, ih]
    by_cases feed : c = '\n'
    · cases pieces : rest.splitOn '\n' <;> simp [feed]
    · simp [feed, Function.comp_def]

theorem splitFeeds_nil_eq_splitOn (text : List Char) :
    splitFeeds [] text = text.splitOn '\n' := by
  rw [splitFeeds_eq_splitOn]
  cases text.splitOn '\n' <;> rfl

end Text

namespace Span

open Text.Utf8 (feed encode size length_encode)

/-- The bytes of lines, each with the feed that ends it. -/
def leading (lines : List (List Char)) : List UInt8 :=
  lines.flatMap fun text => encode text ++ [feed]

/-- The bytes of lines, each with the feed in front of it. -/
def trailing (lines : List (List Char)) : List UInt8 :=
  lines.flatMap fun text => feed :: encode text

/-- A stretch of bytes starts at a byte that is no line feed, lies within the bytes and has no line
feed in it. -/
structure InLine (bytes : List UInt8) (offset length : Nat) : Prop where
  starts : ∃ byte, bytes[offset]? = some byte ∧ byte ≠ feed
  ends : offset + length ≤ bytes.length
  unbroken : feed ∉ (bytes.drop offset).take length

/-! ### Bytes and lines -/

theorem encode_intercalate_cons (text : List Char) (after : List (List Char)) :
    encode (['\n'].intercalate (text :: after)) = encode text ++ trailing after := by
  induction after generalizing text with
  | nil => simp [trailing]
  | cons next rest ih =>
    have feeds : encode ['\n'] = [feed] := rfl
    rw [List.intercalate_cons_cons, List.append_assoc, Text.Utf8.encode_append,
      Text.Utf8.encode_append, ih, feeds]
    simp [trailing]

theorem encode_intercalate (before after : List (List Char)) (text : List Char) :
    encode (['\n'].intercalate (before ++ text :: after)) =
      leading before ++ (encode text ++ trailing after) := by
  cases before with
  | nil => exact encode_intercalate_cons text after
  | cons first rest =>
    rw [List.cons_append, encode_intercalate_cons]
    -- the feed in front of a line is the one behind the line before it
    have moved : ∀ lines : List (List Char), ∀ first : List Char,
        encode first ++ trailing (lines ++ text :: after) =
          leading (first :: lines) ++ (encode text ++ trailing after) := by
      intro lines
      induction lines with
      | nil => simp [leading, trailing]
      | cons next rest ih =>
        intro first
        have onward := ih next
        simp only [leading, trailing, List.cons_append, List.flatMap_cons, List.append_assoc,
          List.nil_append] at onward ⊢
        rw [onward]
    exact moved rest first

theorem count_leading {lines : List (List Char)} (clean : ∀ text ∈ lines, '\n' ∉ text) :
    (leading lines).count feed = lines.length := by
  induction lines with
  | nil => rfl
  | cons text rest ih =>
    obtain ⟨here, others⟩ := List.forall_mem_cons.mp clean
    have none : (encode text).count feed = 0 :=
      List.count_eq_zero.mpr ((not_congr Text.Utf8.feed_mem_encode).mpr here)
    change (encode text ++ [feed] ++ leading rest).count feed = _
    rw [List.count_append, List.count_append, none, ih others, List.length_cons,
      List.count_singleton_self]
    omega

/-- What stands before a line is nothing or ends with a feed. -/
theorem takeWhile_reverse_leading (lines : List (List Char)) :
    (leading lines).reverse.takeWhile (· != feed) = [] := by
  rcases lines.eq_nil_or_concat with rfl | ⟨before, last, rfl⟩
  · rfl
  · simp [leading]

theorem head_trailing {lines : List (List Char)} {byte : UInt8}
    (first : (trailing lines).head? = some byte) : byte = feed := by
  cases lines with
  | nil => cases first
  | cons text rest => exact (Option.some.inj first).symm

/-! ### Stretches of bytes -/

section

variable {front rest : List UInt8} {offset length : Nat}

theorem inLine_of_line (clean : feed ∉ front) (starts : offset < front.length)
    (ends : offset + length ≤ front.length) : InLine (front ++ rest) offset length := by
  refine ⟨⟨front[offset], ?_, ?_⟩, ?_, ?_⟩
  · rw [List.getElem?_append_left starts, List.getElem?_eq_getElem starts]
  · intro same
    exact clean (same ▸ List.getElem_mem starts)
  · rw [List.length_append]
    omega
  · rw [List.drop_append_of_le_length (by omega), List.take_append_of_le_length (by simp; omega)]
    exact fun member => clean (List.mem_of_mem_drop (List.mem_of_mem_take member))

/-- A stretch that starts in a line, or where the line ends, has to end in it. -/
theorem inLine_iff_of_le (clean : feed ∉ front)
    (closed : ∀ {byte}, rest.head? = some byte → byte = feed) (starts : offset ≤ front.length) :
    InLine (front ++ rest) offset length ↔
      offset < front.length ∧ offset + length ≤ front.length := by
  constructor
  · rintro ⟨⟨byte, here, other⟩, inside, unbroken⟩
    have before : offset < front.length := by
      refine Nat.lt_of_le_of_ne starts fun same => ?_
      rw [same, List.getElem?_append_right (Nat.le_refl _), Nat.sub_self,
        ← List.head?_eq_getElem?] at here
      exact other (closed here)
    refine ⟨before, Nat.le_of_not_lt fun reaches => ?_⟩
    cases rest with
    | nil =>
      rw [List.append_nil] at inside
      omega
    | cons byte rest =>
      -- the stretch goes over the end of the line, so the feed there is in it
      obtain ⟨more, count⟩ : ∃ more, length - (front.length - offset) = more + 1 :=
        ⟨length - (front.length - offset) - 1, by omega⟩
      rw [closed rfl, List.drop_append_of_le_length (by omega), List.take_append,
        List.length_drop, count, List.take_succ_cons] at unbroken
      exact unbroken (List.mem_append_right _ List.mem_cons_self)
  · rintro ⟨before, ends⟩
    exact inLine_of_line clean before ends

/-- Behind a line and its feed the count starts anew. -/
theorem inLine_behind (behind : front.length < offset) :
    InLine (front ++ feed :: rest) offset length ↔
      InLine rest (offset - front.length - 1) length := by
  have shift : offset - front.length = offset - front.length - 1 + 1 := by omega
  have start : (front ++ feed :: rest)[offset]? = rest[offset - front.length - 1]? := by
    rw [List.getElem?_append_right (by omega), shift, List.getElem?_cons_succ,
      Nat.add_sub_cancel]
  have dropped : (front ++ feed :: rest).drop offset = rest.drop (offset - front.length - 1) := by
    rw [List.drop_append, List.drop_eq_nil_of_le (by omega), List.nil_append, shift,
      List.drop_succ_cons, Nat.add_sub_cancel]
  have bound : offset + length ≤ (front ++ feed :: rest).length ↔
      offset - front.length - 1 + length ≤ rest.length := by
    rw [List.length_append, List.length_cons]
    omega
  constructor
  · rintro ⟨starts, ends, unbroken⟩
    exact ⟨start ▸ starts, bound.mp ends, dropped ▸ unbroken⟩
  · rintro ⟨starts, ends, unbroken⟩
    exact ⟨start ▸ starts, bound.mpr ends, dropped ▸ unbroken⟩

end

/-! ### Going over the lines -/

variable {file : String} {line offset length : Nat} {span : Span}

theorem ofLine_inside {text : List Char} (positive : 0 < line)
    (ends : offset + length ≤ size text) :
    ofLine file line text offset length =
      .ok ⟨file, line, offset, length, String.ofList text⟩ := by
  rw [ofLine, if_neg (by omega), if_neg (by omega)]

/-- What the lines are looked through for: a stretch that is in the first of them, or in the others
if it starts behind the feed. -/
theorem ofLines_cons_eq_ok_iff {text : List Char} {rest : List (List Char)} (positive : 0 < line) :
    ofLines file line offset length (text :: rest) = .ok span ↔
      (offset < size text ∧ offset + length ≤ size text ∧
        span = ⟨file, line, offset, length, String.ofList text⟩) ∨
      (size text < offset ∧
        ofLines file (line + 1) (offset - size text - 1) length rest = .ok span) := by
  rw [ofLines]
  split
  · next same =>
    refine iff_of_false (by simp) ?_
    omega
  split
  · next behind => simp [behind, Nat.lt_asymm behind]
  split
  · next reaches =>
    refine iff_of_false (by simp) ?_
    omega
  · rw [ofLine_inside positive (by omega), Except.ok.injEq, eq_comm (a := span)]
    constructor
    · intro same
      exact .inl ⟨by omega, by omega, same⟩
    · rintro (⟨-, -, same⟩ | ⟨behind, -⟩)
      · exact same
      · omega

theorem exists_ofLines_here {first : List Char} {rest : List (List Char)} (positive : 0 < line)
    (clean : '\n' ∉ first) (here : offset ≤ size first) :
    (∃ span, ofLines file line offset length (first :: rest) = .ok span) ↔
      InLine (encode first ++ trailing rest) offset length := by
  have pure : feed ∉ encode first := (not_congr Text.Utf8.feed_mem_encode).mpr clean
  rw [inLine_iff_of_le pure head_trailing (by rwa [length_encode]), length_encode]
  constructor
  · rintro ⟨span, found⟩
    rcases (ofLines_cons_eq_ok_iff positive).mp found with ⟨before, ends, -⟩ | ⟨behind, -⟩
    · exact ⟨before, ends⟩
    · omega
  · rintro ⟨before, ends⟩
    exact ⟨_, (ofLines_cons_eq_ok_iff positive).mpr (.inl ⟨before, ends, rfl⟩)⟩

theorem ofLines_behind {first : List Char} {rest : List (List Char)}
    (behind : size first < offset) :
    ofLines file line offset length (first :: rest) =
      ofLines file (line + 1) (offset - size first - 1) length rest := by
  rw [ofLines, if_neg (Nat.ne_of_lt behind), if_pos behind]

/-- Some line has the stretch just when the bytes of all of them have it. -/
theorem exists_ofLines_iff {first : List Char} {rest : List (List Char)} (positive : 0 < line)
    (clean : ∀ text ∈ first :: rest, '\n' ∉ text) :
    (∃ span, ofLines file line offset length (first :: rest) = .ok span) ↔
      InLine (encode first ++ trailing rest) offset length := by
  induction rest generalizing first line offset with
  | nil =>
    rcases Nat.lt_or_ge (size first) offset with behind | here
    · rw [ofLines_behind behind]
      refine iff_of_false (by simp [ofLines]) ?_
      rintro ⟨-, ends, -⟩
      rw [List.length_append, length_encode] at ends
      change offset + length ≤ size first + 0 at ends
      omega
    · exact exists_ofLines_here positive (clean first List.mem_cons_self) here
  | cons next others ih =>
    rcases Nat.lt_or_ge (size first) offset with behind | here
    · have onward : trailing (next :: others) = feed :: (encode next ++ trailing others) := rfl
      rw [ofLines_behind behind, onward, inLine_behind (by rwa [length_encode]), length_encode]
      exact ih (Nat.succ_pos line) (List.forall_mem_cons.mp clean).2
    · exact exists_ofLines_here positive (clean first List.mem_cons_self) here

/-- The line that a stretch is found in, with the lines around it. -/
theorem exists_line_of_ofLines {lines : List (List Char)} (positive : 0 < line)
    (found : ofLines file line offset length lines = .ok span) :
    ∃ before text after start, lines = before ++ text :: after ∧
      offset = (leading before).length + start ∧ start + length ≤ size text ∧
      span = ⟨file, line + before.length, start, length, String.ofList text⟩ := by
  induction lines generalizing line offset with
  | nil => cases found
  | cons first rest ih =>
    rcases (ofLines_cons_eq_ok_iff positive).mp found with ⟨-, ends, rfl⟩ | ⟨behind, onward⟩
    · exact ⟨[], first, rest, offset, rfl, (Nat.zero_add _).symm, ends, rfl⟩
    · obtain ⟨before, text, after, start, rfl, place, ends, rfl⟩ := ih (Nat.succ_pos line) onward
      refine ⟨first :: before, text, after, start, rfl, ?_, ends, ?_⟩
      · have more : (leading (first :: before)).length =
            size first + 1 + (leading before).length := by
          rw [leading, List.flatMap_cons, List.length_append, List.length_append, length_encode]
          rfl
        omega
      · rw [List.length_cons, Nat.succ_add_eq_add_succ]

/-- A file has a stretch of some length at an offset exactly when there is a byte that is no line
feed and the bytes of the stretch are there, without a line feed among them. The stretch is then on
the line after as many feeds as are in front of it, begins as many bytes into that line as there
are since the last feed, and has the same bytes there. -/
theorem ofContent_located (file : String) (content : List Char) (offset length : Nat) :
    let bytes := encode content
    let feeds := (bytes.take offset).count feed
    ((∃ span, ofContent file content offset length = .ok span) ↔ InLine bytes offset length) ∧
    ∀ span, ofContent file content offset length = .ok span →
      span.file = file ∧ span.length = length ∧ span.line = 1 + feeds ∧
      (content.splitOn '\n')[feeds]? = some span.text.toList ∧
      span.offset = ((bytes.take offset).reverse.takeWhile (· != feed)).length ∧
      span.offset + length ≤ (encode span.text.toList).length ∧
      ((encode span.text.toList).drop span.offset).take length =
        (bytes.drop offset).take length := by
  intro bytes feeds
  have split := Text.splitFeeds_nil_eq_splitOn content
  have clean : ∀ text ∈ content.splitOn '\n', '\n' ∉ text := by
    rw [← split]
    exact fun text member => Text.feed_not_mem_splitFeeds List.not_mem_nil member
  have whole : ['\n'].intercalate (content.splitOn '\n') = content := List.intercalate_splitOn '\n'
  rw [ofContent, split]
  constructor
  · obtain ⟨first, rest, shape⟩ := List.exists_cons_of_ne_nil (List.splitOn_ne_nil '\n' content)
    have parts : bytes = encode first ++ trailing rest := by
      rw [← encode_intercalate_cons, ← shape, whole]
    rw [shape] at clean ⊢
    rw [parts]
    exact exists_ofLines_iff Nat.one_pos clean
  · intro span found
    obtain ⟨before, text, after, start, shape, place, ends, rfl⟩ :=
      exists_line_of_ofLines Nat.one_pos found
    have parts : bytes = leading before ++ (encode text ++ trailing after) := by
      rw [← encode_intercalate, ← shape, whole]
    rw [shape] at clean
    have pure : feed ∉ encode text :=
      (not_congr Text.Utf8.feed_mem_encode).mpr (clean text (by simp))
    have long : start + length ≤ (encode text).length := by rwa [length_encode]
    have front : bytes.take offset = leading before ++ (encode text).take start := by
      rw [parts, place, List.take_length_add_append, List.take_append_of_le_length (by omega)]
    have count : feeds = before.length := by
      have none : ((encode text).take start).count feed = 0 :=
        List.count_eq_zero.mpr fun member => pure (List.mem_of_mem_take member)
      change (bytes.take offset).count feed = _
      rw [front, List.count_append, none, Nat.add_zero]
      exact count_leading fun line member => clean line (List.mem_append_left _ member)
    have stretch : ((encode text).drop start).take length = (bytes.drop offset).take length := by
      rw [parts, place, List.drop_length_add_append, List.drop_append_of_le_length (by omega),
        List.take_append_of_le_length (by rw [List.length_drop]; omega)]
    have since : ((bytes.take offset).reverse.takeWhile (· != feed)).length = start := by
      have plain : ∀ byte ∈ ((encode text).take start).reverse, (byte != feed) = true := by
        intro byte member
        rw [bne_iff_ne]
        rintro rfl
        exact pure (List.mem_of_mem_take (List.mem_reverse.mp member))
      rw [front, List.reverse_append, List.takeWhile_append_of_pos plain,
        takeWhile_reverse_leading, List.append_nil, List.length_reverse, List.length_take]
      omega
    rw [String.toList_ofList]
    refine ⟨rfl, rfl, by rw [count], ?_, since.symm, long, stretch⟩
    rw [count, shape, List.getElem?_append_right (Nat.le_refl _), Nat.sub_self]
    rfl

/-- The second line of a file, from a character of two bytes on to the end of the line. -/
theorem ofContent_located_accent :
    let content := ['a', '\n', 'b', 'é', '\n']
    ∃ span, ofContent "x" content 3 2 = .ok span ∧ span.line = 2 ∧ span.offset = 1 ∧
      span.text.toList = ['b', 'é'] := by
  intro content
  obtain ⟨succeeds, located⟩ := ofContent_located "x" content 3 2
  have inLine : InLine (encode content) 3 2 :=
    ⟨⟨0xC3, by decide, by decide⟩, by decide, by decide⟩
  obtain ⟨span, found⟩ := succeeds.mpr inLine
  obtain ⟨-, -, line, text, offset, -⟩ := located span found
  have feeds : ((encode content).take 3).count feed = 1 := by decide
  rw [feeds] at line text
  exact ⟨span, found, line, offset.trans (by decide), (Option.some.inj text).symm⟩

end Span

end FormatCompiler
