import FormatCompiler.Listing.Writer
import FormatCompiler.Text.Words

/-!
The text of a row, read again. A row whose cells hold no line feed is one line, and the words of
that line are what the cells hold. A row with a feed in some cell is cut inside the quotes of that
cell, so its first line has no words at all.
-/

namespace FormatCompiler

set_option autoImplicit false

namespace Text

/-! ### Lines -/

theorem splitFeeds_append (line text rest : List Char) (clean : '\n' ∉ text) :
    splitFeeds line (text ++ rest) = splitFeeds (text.reverse ++ line) rest := by
  induction text generalizing line with
  | nil => rfl
  | cons c text ih =>
    have first : c ≠ '\n' := fun same => clean (by simp [same])
    have others : '\n' ∉ text := fun member => clean (by simp [member])
    simp only [List.cons_append, splitFeeds, first, ↓reduceIte, ih _ others, List.reverse_cons,
      List.append_assoc, List.nil_append]

theorem splitFeeds_ne_nil (line text : List Char) : splitFeeds line text ≠ [] := by
  induction text generalizing line with
  | nil => simp [splitFeeds]
  | cons c rest ih =>
    rw [splitFeeds]
    split
    · simp
    · exact ih _

/-- A feed ends a line, and what is behind it is cut as if it stood alone. -/
theorem lines_append_feed (line rest : List Char) (clean : '\n' ∉ line) :
    lines (line ++ '\n' :: rest) = dropReturn line :: lines rest := by
  rw [lines, splitFeeds_append [] line _ clean, List.append_nil, splitFeeds, if_pos rfl,
    List.reverse_reverse]
  cases pieces : splitFeeds [] rest with
  | nil => exact absurd pieces (splitFeeds_ne_nil [] rest)
  | cons piece more =>
    rw [lines, pieces, endLines]
    simp

theorem dropReturn_append (line : List Char) (c : Char) (other : c ≠ '\r') :
    dropReturn (line ++ [c]) = line ++ [c] := by
  unfold dropReturn
  split
  · next rest shape =>
    rw [List.reverse_append] at shape
    exact absurd (List.cons.inj shape).1 other
  · rfl

/-- At most a carriage return is taken off a line. -/
theorem eq_dropReturn_append (line : List Char) :
    line = dropReturn line ∨ line = dropReturn line ++ ['\r'] := by
  unfold dropReturn
  split
  · next rest shape =>
    right
    rw [← List.reverse_reverse line, shape, List.reverse_cons]
  · left
    rfl

/-! ### Words -/

theorem escape_append (front back : List Char) :
    escape (front ++ back) = escape front ++ escape back := by
  induction front with
  | nil => rfl
  | cons c rest ih =>
    simp only [List.cons_append, escape, ih]
    split <;> rfl

theorem feed_mem_escape (text : List Char) : '\n' ∈ escape text ↔ '\n' ∈ text := by
  induction text with
  | nil => rfl
  | cons c rest ih =>
    simp only [escape]
    split
    · next special => rcases special with rfl | rfl <;> simp [ih]
    · simp [ih]

/-- Inside double quotes every text is found again, whatever its characters are. -/
theorem scanWords_escape (text word rest : List Char) :
    scanWords .double word (escape text ++ rest) =
      scanWords .double (text.reverse ++ word) rest := by
  induction text generalizing word with
  | nil => rfl
  | cons c text ih =>
    have tail := ih (c :: word)
    rw [escape]
    split
    · next special =>
      rcases special with rfl | rfl <;> simpa [scanWords, isDoubleSpecial] using tail
    · next ordinary =>
      rw [not_or] at ordinary
      simpa [scanWords, ordinary] using tail

theorem scanWords_quote (text rest : List Char) :
    scanWords .between [] (quote text ++ rest) = scanWords .bare text.reverse rest := by
  have inner := scanWords_escape text [] ('"' :: rest)
  simpa [quote, scanWords] using inner

/-- A quoted text that stops before its closing quote leaves the row without words. -/
theorem scanWords_quote_open (text : List Char) :
    scanWords .between [] ('"' :: escape text) = none := by
  have inner := scanWords_escape text [] []
  simpa [scanWords] using inner

/-- The characters of bare cells: none of them means anything to the scan of a row. -/
def isBareChar (c : Char) : Bool :=
  c.isAlphanum || c == '_' || c == '-'

theorem isBareChar_ordinary {c : Char} (plain : isBareChar c) :
    c ≠ '\'' ∧ c ≠ '"' ∧ c ≠ '\\' ∧ isGap c = false ∧ c ≠ '#' := by
  have gap : isGap c = false := by
    apply Bool.eq_false_iff.mpr
    intro found
    simp only [isGap, Bool.or_eq_true, beq_iff_eq] at found
    rcases found with (rfl | rfl) | rfl <;> simp [isBareChar] at plain
  refine ⟨?_, ?_, ?_, gap, ?_⟩ <;>
  · rintro rfl
    simp [isBareChar] at plain

theorem scanWords_bareChar {c : Char} (plain : isBareChar c) (word rest : List Char) :
    scanWords .bare word (c :: rest) = scanWords .bare (c :: word) rest := by
  obtain ⟨single, double, slash, gap, -⟩ := isBareChar_ordinary plain
  simp [scanWords, single, double, slash, gap]

theorem scanWords_bareText (text word rest : List Char) (plain : ∀ c ∈ text, isBareChar c) :
    scanWords .bare word (text ++ rest) = scanWords .bare (text.reverse ++ word) rest := by
  induction text generalizing word with
  | nil => rfl
  | cons c text ih =>
    have others : ∀ d ∈ text, isBareChar d := fun d member => plain d (by simp [member])
    rw [List.cons_append, scanWords_bareChar (plain c (by simp)), ih _ others]
    simp

/-- A bare character starts a word just as it continues one: a quote, a backslash, a gap and the
mark of a comment are no bare characters. -/
theorem scanWords_startChar {c : Char} (plain : isBareChar c) (rest : List Char) :
    scanWords .between [] (c :: rest) = scanWords .bare [] (c :: rest) := by
  obtain ⟨single, double, slash, gap, mark⟩ := isBareChar_ordinary plain
  simp [scanWords, single, double, slash, gap, mark]

theorem scanWords_append_return (scan : Scan) (word text : List Char)
    (closed : (scanWords scan word text).isSome) :
    (scanWords scan word (text ++ ['\r'])).isSome := by
  fun_induction scanWords scan word text <;> simp_all [scanWords, isGap]

/-- A carriage return neither closes nor opens a quote. -/
theorem words_dropReturn {line : List Char} (unclosed : words line = none) :
    words (dropReturn line) = none := by
  rcases eq_dropReturn_append line with same | longer
  · rw [← same, unclosed]
  · cases found : words (dropReturn line) with
    | none => rfl
    | some result =>
      have closed := scanWords_append_return .between [] (dropReturn line)
        (by rw [← words, found]; rfl)
      rw [← longer, ← words, unclosed] at closed
      exact absurd closed (by simp)

end Text

namespace Listing

open Text

/-- A bare cell is a word of its own: not empty, and of bare characters only. -/
def Cell.IsPlain : Cell → Prop
  | .bare word => word.toList ≠ [] ∧ word.toList.all isBareChar
  | .quoted _ => True

/-- A row that can be written: it has a cell, and its bare cells are words. -/
structure Row.WellFormed (row : Row) : Prop where
  nonempty : row ≠ []
  plain : ∀ cell ∈ row, cell.IsPlain

/-- No cell of the row holds a line feed. -/
def Row.IsLine (row : Row) : Prop :=
  ∀ cell ∈ row, '\n' ∉ cell.content.toList

theorem Cell.scan_text (cell : Cell) (plain : cell.IsPlain) (rest : List Char) :
    scanWords .between [] (cell.text ++ rest) =
      scanWords .bare cell.content.toList.reverse rest := by
  cases cell with
  | quoted text => exact scanWords_quote text.toList rest
  | bare word =>
    obtain ⟨nonempty, allBare⟩ := plain
    have chars := List.all_eq_true.mp allBare
    obtain ⟨c, more, shape⟩ := List.exists_cons_of_ne_nil nonempty
    have first : isBareChar c := chars c (by simp [shape])
    have whole := scanWords_bareText word.toList [] rest chars
    rw [List.append_nil] at whole
    rw [Cell.text, Cell.content, ← whole, shape, List.cons_append, scanWords_startChar first]

theorem Cell.feed_mem_text (cell : Cell) : '\n' ∈ cell.text ↔ '\n' ∈ cell.content.toList := by
  cases cell with
  | quoted text => simp [Cell.text, Cell.content, quote, feed_mem_escape]
  | bare word => rfl

theorem Cell.not_feed_of_bare {word : String} (plain : (Cell.bare word).IsPlain) :
    '\n' ∉ word.toList := by
  intro member
  exact absurd (List.all_eq_true.mp plain.2 '\n' member) (by decide)

theorem Row.text_cons_cons (cell next : Cell) (rest : Row) :
    Row.text (cell :: next :: rest) = cell.text ++ ' ' :: Row.text (next :: rest) := rfl

theorem Row.feed_mem_text (row : Row) : '\n' ∈ row.text ↔ ¬ row.IsLine := by
  induction row with
  | nil => simp [Row.text, Row.IsLine]
  | cons cell rest ih =>
    cases rest with
    | nil => simp [Row.text, Row.IsLine, Cell.feed_mem_text]
    | cons next rest =>
      rw [Row.text_cons_cons]
      simp only [List.mem_append, List.mem_cons, ih, Cell.feed_mem_text, Row.IsLine,
        forall_eq_or_imp]
      simp
      grind

/-- The words of a row are what its cells hold. -/
theorem Row.words_text (row : Row) (formed : row.WellFormed) :
    words row.text = some (row.map fun cell => cell.content.toList) := by
  rw [words]
  induction row with
  | nil => exact absurd rfl formed.nonempty
  | cons cell rest ih =>
    have plain := formed.plain cell (by simp)
    cases rest with
    | nil =>
      have scanned := cell.scan_text plain []
      rw [List.append_nil] at scanned
      rw [Row.text, scanned, scanWords]
      simp
    | cons next rest =>
      have others : Row.WellFormed (next :: rest) :=
        ⟨by simp, fun cell member => formed.plain cell (by simp_all)⟩
      rw [Row.text_cons_cons, cell.scan_text plain, scanWords, ih others]
      simp [isGap]

/-- Two ways to cut one text: a front without a feed lies before its first feed. -/
theorem append_eq_at_feed {front back before after : List Char}
    (same : front ++ back = before ++ '\n' :: after) (clean : '\n' ∉ front) :
    ∃ more, before = front ++ more ∧ back = more ++ '\n' :: after := by
  rcases List.append_eq_append_iff.mp same with ⟨more, longer, left⟩ | ⟨more, longer, left⟩
  · exact ⟨more, longer, left⟩
  · cases more with
    | nil => exact ⟨[], by simp [longer], by simp [left]⟩
    | cons c more =>
      obtain ⟨rfl, -⟩ := List.cons.inj left
      exact absurd (by simp [longer]) clean

/-- The first feed of a quoted text leaves an opening quote and an escaped text before it. -/
theorem quote_cut {text rest before after : List Char}
    (same : quote text ++ rest = before ++ '\n' :: after) (clean : '\n' ∉ before)
    (feed : '\n' ∈ text) : ∃ start, before = '"' :: escape start := by
  obtain ⟨start, finish, rfl, unbroken⟩ := List.eq_append_cons_of_mem feed
  have front : '\n' ∉ '"' :: escape start := by simp [feed_mem_escape, unbroken]
  have layout : quote (start ++ '\n' :: finish) ++ rest =
      ('"' :: escape start) ++ '\n' :: (escape finish ++ '"' :: rest) := by
    simp [quote, escape_append, escape]
  rw [layout] at same
  obtain ⟨more, rfl, left⟩ := append_eq_at_feed same front
  cases more with
  | nil => exact ⟨start, by simp⟩
  | cons c more =>
    obtain ⟨rfl, -⟩ := List.cons.inj left
    exact absurd (by simp) clean

/-- The part of a row before its first feed ends inside quotes. -/
theorem Row.words_cut (row : Row) (plain : ∀ cell ∈ row, cell.IsPlain) (before after : List Char)
    (shape : row.text = before ++ '\n' :: after) (clean : '\n' ∉ before) :
    words before = none := by
  rw [words]
  induction row generalizing before with
  | nil => simp [Row.text] at shape
  | cons cell rest ih =>
    obtain ⟨tail, layout⟩ : ∃ tail, Row.text (cell :: rest) = cell.text ++ tail := by
      cases rest with
      | nil => exact ⟨[], by simp [Row.text]⟩
      | cons next rest => exact ⟨_, Row.text_cons_cons cell next rest⟩
    by_cases broken : '\n' ∈ cell.content.toList
    · cases cell with
      | bare word => exact absurd broken (Cell.not_feed_of_bare (plain (.bare word) (by simp)))
      | quoted text =>
        rw [layout] at shape
        obtain ⟨start, rfl⟩ := quote_cut shape clean broken
        exact scanWords_quote_open start
    · have whole : '\n' ∉ cell.text := by rwa [Cell.feed_mem_text]
      cases rest with
      | nil =>
        have feed : '\n' ∈ cell.text := by
          rw [Row.text] at shape
          simp [shape]
        exact absurd feed whole
      | cons next rest =>
        rw [Row.text_cons_cons] at shape
        obtain ⟨more, rfl, left⟩ := append_eq_at_feed shape whole
        cases more with
        | nil => simp at left
        | cons c more =>
          obtain ⟨rfl, inner⟩ := List.cons.inj left
          have unclosed := ih (fun cell member => plain cell (by simp_all)) more inner
            (fun member => clean (by simp [member]))
          rw [cell.scan_text (plain cell (by simp)), scanWords, unclosed]
          simp [isGap]

theorem Cell.dropReturn_text (cell : Cell) (plain : cell.IsPlain) (front : List Char) :
    dropReturn (front ++ cell.text) = front ++ cell.text := by
  cases cell with
  | quoted text =>
    have shape : front ++ Cell.text (.quoted text) =
        (front ++ '"' :: escape text.toList) ++ ['"'] := by
      simp [Cell.text, quote]
    rw [shape, dropReturn_append _ _ (by decide)]
  | bare word =>
    have last := List.dropLast_concat_getLast plain.1
    have bare := List.all_eq_true.mp plain.2 _ (List.getLast_mem plain.1)
    rw [Cell.text, ← last, ← List.append_assoc, dropReturn_append]
    intro same
    rw [same] at bare
    exact absurd bare (by decide)

/-- A row ends with a quote or a bare character, so the end of its line takes nothing off it. -/
theorem Row.dropReturn_text (row : Row) (formed : row.WellFormed) :
    dropReturn row.text = row.text := by
  suffices behind : ∀ front, dropReturn (front ++ row.text) = front ++ row.text from behind []
  induction row with
  | nil => exact absurd rfl formed.nonempty
  | cons cell rest ih =>
    intro front
    cases rest with
    | nil => exact cell.dropReturn_text (formed.plain cell (by simp)) front
    | cons next rest =>
      have others : Row.WellFormed (next :: rest) :=
        ⟨by simp, fun cell member => formed.plain cell (by simp_all)⟩
      rw [Row.text_cons_cons]
      simpa using ih others (front ++ cell.text ++ [' '])

theorem Row.lines_text (row : Row) (formed : row.WellFormed) (line : row.IsLine)
    (rest : List Char) : lines (row.text ++ '\n' :: rest) = row.text :: lines rest := by
  have clean : '\n' ∉ row.text := fun feed => row.feed_mem_text.mp feed line
  rw [lines_append_feed _ _ clean, row.dropReturn_text formed]

theorem Row.lines_broken (row : Row) (formed : row.WellFormed) (broken : ¬ row.IsLine)
    (rest : List Char) :
    ∃ cut more, lines (row.text ++ '\n' :: rest) = cut :: more ∧ words cut = none := by
  obtain ⟨before, after, shape, clean⟩ :=
    List.eq_append_cons_of_mem (row.feed_mem_text.mpr broken)
  have unclosed := row.words_cut formed.plain before after shape clean
  refine ⟨dropReturn before, lines (after ++ '\n' :: rest), ?_, words_dropReturn unclosed⟩
  rw [shape, List.append_assoc, List.cons_append, lines_append_feed _ _ clean]

end Listing

end FormatCompiler
