import FormatCompiler.Compilation.Basic
import FormatCompiler.Proofs.ImportRows
import FormatCompiler.Proofs.RowOrigin

/-!
Where a listing is at fault. A reader that has read some lines of a listing knows how many, and
every row it holds on to has its number and its text. So whatever makes a listing unreadable is
reported with the number and the text of one of its lines, or with the number behind the last line
if the listing ends too early; and the row can be shown in full.
-/

namespace FormatCompiler

set_option autoImplicit false

namespace Text.Utf8

theorem takeBytes_size (text : List Char) : takeBytes (size text) text = some text := by
  induction text with
  | nil => rfl
  | cons c rest ih =>
    have whole : size (c :: rest) = c.utf8Size + size rest := rfl
    obtain ⟨length, inhabited⟩ := Nat.exists_eq_add_one.mpr (Char.utf8Size_pos c)
    have counted : size (c :: rest) = (length + size rest) + 1 := by omega
    rw [counted, takeBytes, if_pos (by omega)]
    have left : length + size rest + 1 - c.utf8Size = size rest := by omega
    rw [left, ih, Option.map_some]

/-- All the bytes of a text are the text. -/
theorem slice_whole (text : List Char) : slice 0 (size text) text = some text := by
  rw [slice, dropBytes, Option.bind_some, takeBytes_size]

end Text.Utf8

namespace Listing

/-- A row of a listing with its number, counted from one: a line, or nothing behind the last. -/
inductive RowAt (lines : List (List Char)) : Nat → String → Prop
  | line {index : Nat} {text : List Char} (found : lines[index]? = some text) :
      RowAt lines (index + 1) (String.ofList text)
  | behind : RowAt lines (lines.length + 1) ""

theorem RowAt.number_ne_zero {lines : List (List Char)} {number : Nat} {text : String}
    (located : RowAt lines number text) : number ≠ 0 := by
  cases located with
  | line _ => exact Nat.succ_ne_zero _
  | behind => exact Nat.succ_ne_zero _

/-- Some lines of a listing were read, and the others are still to be read. -/
def Within (all : List (List Char)) (lines : Lines) : Prop :=
  ∃ front, front.length = lines.line ∧ all = front ++ lines.rest

variable {all rest : List (List Char)} {number : Nat} {line : List Char}

theorem Within.start (all : List (List Char)) : Within all ⟨0, all⟩ :=
  ⟨[], rfl, rfl⟩

theorem Within.next (within : Within all ⟨number, line :: rest⟩) :
    Within all ⟨number + 1, rest⟩ := by
  obtain ⟨front, rfl, rfl⟩ := within
  exact ⟨front ++ [line], by simp, by simp⟩

theorem Within.rowAt (within : Within all ⟨number, line :: rest⟩) :
    RowAt all (number + 1) (String.ofList line) := by
  obtain ⟨front, rfl, rfl⟩ := within
  exact .line (by simp)

theorem Within.rowAt_end (within : Within all ⟨number, []⟩) : RowAt all (number + 1) "" := by
  obtain ⟨front, rfl, rfl⟩ := within
  rw [List.append_nil]
  exact .behind

namespace LineReader

variable {α β : Type}

/-- From a place in a listing, a reader goes on to a further place with a value that has a property,
or it fails at a row of the listing. -/
structure Locates (all : List (List Char)) (reader : LineReader α) (property : α → Prop) :
    Prop where
  yields : Yields (Within all) reader property
  fails : ∀ before bad, Within all before → reader before = .error bad →
    RowAt all bad.line bad.text

namespace Locates

variable {reader : LineReader α} {property : α → Prop}

theorem pure {value : α} (holds : property value) :
    Locates all (Pure.pure value : LineReader α) property := by
  refine ⟨.pure holds, ?_⟩
  rintro before bad - ⟨⟩

theorem lift {result : Except Malformed α}
    (fails : ∀ bad, result = .error bad → RowAt all bad.line bad.text) :
    Locates all (liftM result : LineReader α) fun _ => True := by
  refine ⟨.lift fun _ _ => trivial, ?_⟩
  intro before bad _ failed
  rcases Except.bind_eq_error_iff.mp failed with first | ⟨value, -, ⟨⟩⟩
  exact fails bad first

/-- Readers one after the other: the second may rely on what the first has found. -/
theorem bind {next : α → LineReader β} {final : β → Prop} (first : Locates all reader property)
    (second : ∀ value, property value → Locates all (next value) final) :
    Locates all (reader >>= next) final := by
  refine ⟨first.yields.bind fun value holds => (second value holds).yields, ?_⟩
  intro before bad within failed
  rcases bind_eq_error_iff.mp failed with here | ⟨value, middle, read, later⟩
  · exact first.fails before bad within here
  · obtain ⟨holds, between⟩ := first.yields before value middle within read
    exact (second value holds).fails middle bad between later

end Locates

/-! ### One line -/

theorem row_locates (missing bad : RowFault) :
    Locates all (row missing bad) fun row => RowAt all row.line row.text := by
  constructor
  · rintro ⟨number, _ | ⟨line, rest⟩⟩ found after within read
    · exact absurd read row_of_nil
    · obtain ⟨words, -, rfl, rfl⟩ := row_eq_ok_iff.mp read
      exact ⟨within.rowAt, within.next⟩
  · rintro ⟨number, _ | ⟨line, rest⟩⟩ fault within failed
    · cases failed
      exact within.rowAt_end
    · unfold row at failed
      rcases bind_eq_error_iff.mp failed with ⟨⟨⟩⟩ | ⟨_, _, ⟨⟩, cut⟩
      cases words : Text.words line with
      | none =>
        simp only [words] at cut
        cases cut
        exact within.rowAt
      | some _ =>
        simp only [words] at cut
        cases cut

theorem mark_locates (trim : List Char → List Char) (expected : String) (fault : RowFault) :
    Locates all (mark trim expected fault) fun _ => True := by
  constructor
  · rintro ⟨number, _ | ⟨line, rest⟩⟩ found after within read
    · cases read
    · obtain ⟨-, rfl⟩ := mark_eq_ok_iff.mp read
      exact ⟨trivial, within.next⟩
  · rintro ⟨number, _ | ⟨line, rest⟩⟩ bad within failed
    · cases failed
      exact within.rowAt_end
    · unfold mark at failed
      rcases bind_eq_error_iff.mp failed with ⟨⟨⟩⟩ | ⟨_, _, ⟨⟩, checked⟩
      dsimp only at checked
      split at checked
      · cases checked
        exact within.rowAt
      · cases checked

/-- What is wrong with the words of a row is reported at that row. -/
theorem decode_fails {reader : WordReader α} {row : WordRow} {bad : Malformed}
    (located : RowAt all row.line row.text) (failed : row.decode reader = .error bad) :
    RowAt all bad.line bad.text := by
  unfold WordRow.decode at failed
  split at failed
  · cases failed
  · cases failed
    exact located

theorem value_locates (missing bad : RowFault) (reader : WordReader α) :
    Locates all (value missing bad reader) fun _ => True := by
  unfold value
  exact (row_locates missing bad).bind fun row located =>
    .lift fun bad failed => decode_fails located failed

/-! ### Sections and whole listings -/

theorem takeRows_locates (kind : RowKind) (size : Nat) :
    Locates all (takeRows kind size) fun rows => ∀ row ∈ rows, RowAt all row.line row.text := by
  induction size with
  | zero => exact .pure (by simp)
  | succ size ih =>
    unfold takeRows
    refine (row_locates _ _).bind fun first located => ih.bind fun rest others => ?_
    exact .pure (List.forall_mem_cons.mpr ⟨located, others⟩)

/-- Rows keep their places while they wait to be read, so the first that is at fault is found. -/
theorem decodeAll_locates (reader : WordReader α) (rows : List WordRow)
    (located : ∀ row ∈ rows, RowAt all row.line row.text) :
    Locates all (rows.mapM fun row => row.decode reader : LineReader (List α)) fun _ => True := by
  induction rows with
  | nil => exact .pure trivial
  | cons row rows ih =>
    obtain ⟨here, others⟩ := List.forall_mem_cons.mp located
    rw [List.mapM_cons]
    refine Locates.bind (.lift fun bad failed => decode_fails here failed) fun value _ => ?_
    exact (ih others).bind fun values _ => .pure trivial

theorem sectionRows_locates (name : String) (kind : RowKind) (reader : WordReader α) :
    Locates all (sectionRows name kind reader) fun _ => True := by
  unfold sectionRows
  refine (value_locates _ _ _).bind fun size _ => ?_
  exact (takeRows_locates kind size).bind fun rows located => decodeAll_locates reader rows located

theorem enumValues_locates (size : Nat) : Locates all (enumValues size) fun _ => True := by
  induction size with
  | zero => exact .pure trivial
  | succ size ih =>
    unfold enumValues
    exact (value_locates _ _ _).bind fun first _ => ih.bind fun rest _ => .pure trivial

theorem enums_locates (size : Nat) : Locates all (enums size) fun _ => True := by
  induction size with
  | zero => exact .pure trivial
  | succ size ih =>
    unfold enums
    refine (value_locates _ _ _).bind fun head _ => ?_
    exact (enumValues_locates head.2).bind fun values _ => ih.bind fun rest _ => .pure trivial

theorem imports_locates : Locates all LineReader.imports fun _ => True := by
  have seen : Locates all peek fun _ => True := by
    constructor
    · rintro before found after within ⟨⟩
      exact ⟨trivial, within⟩
    · rintro before bad - ⟨⟩
  unfold LineReader.imports
  refine seen.bind fun word _ => ?_
  split
  · exact sectionRows_locates _ _ _
  · exact .pure trivial

theorem format_locates : Locates all LineReader.format fun _ => True := by
  unfold LineReader.format
  refine (mark_locates _ _ _).bind fun _ _ => ?_
  refine (value_locates _ _ _).bind fun name _ => ?_
  refine (value_locates _ _ _).bind fun order _ => ?_
  refine imports_locates.bind fun imports _ => ?_
  refine (sectionRows_locates _ _ _).bind fun types _ => ?_
  refine (sectionRows_locates _ _ _).bind fun fields _ => ?_
  refine (value_locates _ _ _).bind fun size _ => ?_
  refine (enums_locates size).bind fun enums _ => ?_
  refine (sectionRows_locates _ _ _).bind fun instances _ => ?_
  refine (sectionRows_locates _ _ _).bind fun validations _ => ?_
  exact (mark_locates _ _ _).bind fun _ _ => .pure trivial

end LineReader

theorem rowAt_of_read {text : List Char} {bad : Malformed} (failed : read text = .error bad) :
    RowAt (Text.lines text) bad.line bad.text :=
  LineReader.format_locates.fails _ bad (.start _) (Except.map_eq_error_iff.mp failed)

end Listing

/-- A stretch of all the bytes of a line covers the line. -/
theorem Span.ofLine_whole (file : String) {line : Nat} (counted : line ≠ 0) (text : List Char) :
    ∃ span, ofLine file line text 0 (Text.Utf8.size text) = .ok span ∧
      span.file = file ∧ span.line = line ∧ span.covered? = some text := by
  refine ⟨{ file, line, offset := 0, length := Text.Utf8.size text, text := String.ofList text },
    ?_, rfl, rfl, ?_⟩
  · rw [ofLine, if_neg counted, if_neg (by omega)]
  · rw [covered?, String.toList_ofList, Text.Utf8.slice_whole]

/-- A text that cannot be read as a listing is at fault at one of its lines, or just behind the last
one. Loaded from a file, it is reported for that file with a diagnostic that always shows the row:
its span has the number of the row, and covers the text of the row exactly. -/
theorem malformed_row_shown {text : List Char} {bad : Listing.Malformed}
    (failed : Listing.read text = .error bad) :
    Listing.RowAt (Text.lines text) bad.line bad.text ∧
    ∀ file : String, Imports.parse file (.ok text) = .error (.malformed file bad) ∧
      ∀ path : String, ∃ diagnostic span,
        (CompileFault.load path (.malformed file bad)).diagnostic? = some diagnostic ∧
        diagnostic.span = some span ∧ span.file = file ∧ span.line = bad.line ∧
        span.covered? = some bad.text.toList := by
  have located := Listing.rowAt_of_read failed
  refine ⟨located, fun file => ⟨?_, fun path => ?_⟩⟩
  · exact Except.mapError_eq_error_iff.mpr ⟨bad, failed, rfl⟩
  · obtain ⟨span, made, same⟩ := Span.ofLine_whole file located.number_ne_zero bad.text.toList
    refine ⟨_, span, rfl, ?_, same⟩
    rw [made]
    rfl

/-- A section announces two rows, and both are at fault. The second is not closed, and is reported:
a section is cut into words before it is read. Without it the listing ends too early. -/
theorem malformed_row_shown_unclosed :
    let rows := fun lines : List String => lines.flatMap fun line => line.toList ++ ['\n']
    let front := ["KSIR1", "name m", "default_endian le\r", "types 2", "type a primitive u3"]
    let text := rows (front ++ ["type \"b primitive u1\r"])
    let bad : Listing.Malformed := ⟨6, "type \"b primitive u1", .badRow .typeRow⟩
    let early : Listing.Malformed := ⟨6, "", .truncated .typeRow⟩
    (Listing.read text = .error bad ∧
      ∃ diagnostic span, (CompileFault.load "m.ksir" (.malformed "m.ksir" bad)).diagnostic? =
          some diagnostic ∧ diagnostic.span = some span ∧ span.line = 6 ∧
        span.covered? = some "type \"b primitive u1".toList) ∧
    Listing.read (rows front) = .error early ∧ Listing.RowAt (Text.lines (rows front)) 6 "" := by
  intro rows front text bad early
  have failed : Listing.read text = .error bad := by decide +kernel
  have ended : Listing.read (rows front) = .error early := by decide +kernel
  obtain ⟨diagnostic, span, made, shown, -, same⟩ :=
    ((malformed_row_shown failed).2 "m.ksir").2 "m.ksir"
  exact ⟨⟨failed, diagnostic, span, made, shown, same⟩, ended, (malformed_row_shown ended).1⟩

end FormatCompiler
