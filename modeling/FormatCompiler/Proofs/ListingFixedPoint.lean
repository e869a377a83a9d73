import FormatCompiler.Proofs.ListingRoundTrip
import FormatCompiler.Proofs.RowOrigin

/-!
Listings that were read, in whatever form they were written. What is read from any text at all can
be listed and is its own normal form. So its listing gives it back, and from the second reading on
nothing changes any more.
-/

namespace FormatCompiler

set_option autoImplicit false

namespace Text

theorem feed_not_mem_splitFeeds {line text piece : List Char} (clean : '\n' ∉ line)
    (member : piece ∈ splitFeeds line text) : '\n' ∉ piece := by
  induction text generalizing line with
  | nil =>
    rw [splitFeeds, List.mem_singleton] at member
    simpa [member] using clean
  | cons c rest ih =>
    rw [splitFeeds] at member
    split at member
    · rcases List.mem_cons.mp member with rfl | behind
      · simpa using clean
      · exact ih (by simp) behind
    · next other => exact ih (by simp [clean, Ne.symm other]) member

theorem dropReturn_subset (line : List Char) : dropReturn line ⊆ line := by
  rcases eq_dropReturn_append line with same | longer
  · rw [← same]
    exact List.Subset.refl line
  · intro c member
    rw [longer]
    exact List.mem_append_left ['\r'] member

theorem mem_endLines {pieces : List (List Char)} {line : List Char}
    (member : line ∈ endLines pieces) :
    ∃ piece ∈ pieces, line ⊆ piece := by
  fun_induction endLines pieces with
  | case1 => simp at member
  | case2 last empty => simp at member
  | case3 last filled => exact ⟨last, by simp, by simp_all⟩
  | case4 first rest _ ih =>
    rcases List.mem_cons.mp member with rfl | behind
    · exact ⟨first, by simp, dropReturn_subset first⟩
    · obtain ⟨piece, stored, inside⟩ := ih behind
      exact ⟨piece, by simp [stored], inside⟩

theorem feed_not_mem_lines {text line : List Char} (member : line ∈ lines text) : '\n' ∉ line := by
  obtain ⟨piece, stored, inside⟩ := mem_endLines member
  exact fun feed => feed_not_mem_splitFeeds (by simp) stored (inside feed)

end Text

namespace Listing

/-- No line that is left holds a line feed. -/
def CleanLines (lines : Lines) : Prop :=
  ∀ line ∈ lines.rest, '\n' ∉ line

namespace LineReader

theorem line_yields :
    Yields CleanLines line fun found => ∀ text ∈ found.2, '\n' ∉ text := by
  intro lines found rest clean read
  unfold line at read
  split at read
  · cases read
    exact ⟨by simp, by simp [CleanLines]⟩
  · next first others shape =>
    cases read
    rw [CleanLines, shape, List.forall_mem_cons] at clean
    exact ⟨by simpa using clean.1, clean.2⟩

theorem row_yields (missing bad : RowFault) :
    Yields CleanLines (row missing bad) fun row => CleanWords row.words := by
  unfold row
  refine line_yields.bind fun found clean => ?_
  split
  · exact .throw _
  · next number text =>
    split
    · exact .throw _
    · next words cut =>
      refine .pure ?_
      intro word member
      obtain ⟨chars, stored, rfl⟩ := List.mem_map.mp member
      have line : '\n' ∉ text := clean text rfl
      simpa [OneLine] using Text.scanWords_oneLine (by simp) line cut chars stored

theorem mark_yields (trim : List Char → List Char) (expected : String) (fault : RowFault) :
    Yields CleanLines (mark trim expected fault) fun _ => True := by
  unfold mark
  refine line_yields.bind fun found _ => ?_
  split
  split
  · exact .throw _
  · exact .pure trivial

variable {α : Type} {property : α → Prop} {reader : WordReader α}

theorem decode_yields (yields : Yields CleanWords reader property) {row : WordRow}
    (clean : CleanWords row.words) {value : α} (found : row.decode reader = .ok value) :
    property value := by
  unfold WordRow.decode at found
  split at found
  · next first rest read =>
    cases found
    exact (yields row.words value rest clean read).1
  · cases found

theorem value_yields (missing bad : RowFault) (yields : Yields CleanWords reader property) :
    Yields CleanLines (value missing bad reader) property := by
  unfold value
  exact (row_yields missing bad).bind fun row clean =>
    .lift fun value found => decode_yields yields clean found

theorem sectionSize_yields (name : String) :
    Yields CleanLines (sectionSize name) (· < UInt64.size) :=
  value_yields _ _ (WordReader.sectionSize_yields name)

theorem takeRows_yields (kind : RowKind) (size : Nat) :
    Yields CleanLines (takeRows kind size) fun rows =>
      rows.length = size ∧ ∀ row ∈ rows, CleanWords row.words := by
  induction size with
  | zero => exact .pure ⟨rfl, by simp⟩
  | succ size ih =>
    unfold takeRows
    refine (row_yields _ _).bind fun first clean => ih.bind fun rest others => ?_
    exact .pure ⟨by rw [List.length_cons, others.1], List.forall_mem_cons.mpr ⟨clean, others.2⟩⟩

theorem decodeAll_yields (yields : Yields CleanWords reader property) (rows : List WordRow)
    (clean : ∀ row ∈ rows, CleanWords row.words) :
    Yields CleanLines (rows.mapM fun row => row.decode reader : LineReader (List α)) fun items =>
      items.length = rows.length ∧ ∀ item ∈ items, property item := by
  induction rows with
  | nil => exact .pure ⟨rfl, by simp⟩
  | cons row rows ih =>
    rw [List.mapM_cons]
    have first : ∀ value, row.decode reader = .ok value → property value := fun _ found =>
      decode_yields yields (clean row (by simp)) found
    refine Yields.bind (.lift first) fun value holds => ?_
    refine (ih fun other member => clean other (by simp [member])).bind fun items others => ?_
    exact .pure ⟨by rw [List.length_cons, others.1, List.length_cons],
      List.forall_mem_cons.mpr ⟨holds, others.2⟩⟩

/-- A section has as many items as its header says, and the header says at most 64 bits. -/
theorem sectionRows_yields (name : String) (kind : RowKind)
    (yields : Yields CleanWords reader property) :
    Yields CleanLines (sectionRows name kind reader) fun items =>
      items.length < UInt64.size ∧ ∀ item ∈ items, property item := by
  unfold sectionRows
  refine (sectionSize_yields name).bind fun size fits => ?_
  refine (takeRows_yields kind size).bind fun rows taken => ?_
  refine (decodeAll_yields yields rows taken.2).mono fun items decoded => ⟨?_, decoded.2⟩
  rw [decoded.1, taken.1]
  exact fits

theorem enumValues_yields (size : Nat) :
    Yields CleanLines (enumValues size) fun values =>
      values.length = size ∧ ∀ value ∈ values, OneLine value.name := by
  induction size with
  | zero => exact .pure ⟨rfl, by simp⟩
  | succ size ih =>
    unfold enumValues
    refine (value_yields _ _ WordReader.enumValue_yields).bind fun first line => ?_
    refine ih.bind fun rest others => ?_
    exact .pure ⟨by rw [List.length_cons, others.1], List.forall_mem_cons.mpr ⟨line, others.2⟩⟩

theorem enums_yields (size : Nat) :
    Yields CleanLines (enums size) fun decls =>
      decls.length = size ∧ ∀ decl ∈ decls, EnumReadable decl := by
  induction size with
  | zero => exact .pure ⟨rfl, by simp⟩
  | succ size ih =>
    unfold enums
    refine (value_yields _ _ WordReader.enumHead_yields).bind fun head opened => ?_
    refine (enumValues_yields head.2).bind fun values counted => ?_
    refine ih.bind fun rest others => .pure ⟨by rw [List.length_cons, others.1], ?_⟩
    have first : EnumReadable { name := head.1, values } := by
      constructor
      · simpa [EnumDecl.strings] using ⟨opened.1, counted.2⟩
      · rw [counted.1]
        exact opened.2
    exact List.forall_mem_cons.mpr ⟨first, others.2⟩

theorem imports_yields :
    Yields CleanLines LineReader.imports fun names =>
      names.length < UInt64.size ∧ ∀ name ∈ names, OneLine name := by
  have seen : Yields CleanLines peek fun _ => True := by
    intro lines found rest clean read
    cases read
    exact ⟨trivial, clean⟩
  unfold LineReader.imports
  refine seen.bind fun word _ => ?_
  split
  · exact sectionRows_yields _ _ WordReader.importName_yields
  · exact .pure ⟨by decide, by simp⟩

theorem format_yields :
    Yields CleanLines LineReader.format fun format =>
      format.IsListable ∧ format.normal = format := by
  unfold LineReader.format
  refine (mark_yields _ _ _).bind fun _ _ => ?_
  refine (value_yields _ _ WordReader.formatName_yields).bind fun name named => ?_
  refine (value_yields _ _ WordReader.formatOrder_yields).bind fun order _ => ?_
  refine imports_yields.bind fun imports imported => ?_
  refine (sectionRows_yields _ _ WordReader.typeDecl_yields).bind fun types typed => ?_
  refine (sectionRows_yields _ _ WordReader.field_yields).bind fun fields fielded => ?_
  refine (sectionSize_yields _).bind fun size fits => ?_
  refine (enums_yields size).bind fun enums enumerated => ?_
  refine (sectionRows_yields _ _ WordReader.instanceDecl_yields).bind fun instances computed => ?_
  refine (sectionRows_yields _ _ WordReader.validation_yields).bind fun validations validated => ?_
  refine (mark_yields _ _ _).bind fun _ _ => .pure ⟨?_, ?_⟩
  · rw [Format.isListable_iff]
    refine ⟨⟨named, imported.2, typed.2, ?_, ?_, ?_, ?_⟩, ⟨imported.1, typed.1, fielded.1, ?_,
      computed.1, validated.1, ?_, ?_⟩⟩
    · exact fun field member => (fielded.2 field member).settled.oneLine
    · exact fun decl member => (enumerated.2 decl member).1
    · exact fun inst member => (computed.2 inst member).oneLine
    · exact fun validation member => (validated.2 validation member).oneLine
    · rw [enumerated.1]
      exact fits
    · exact fun field member => (fielded.2 field member).counted
    · exact fun decl member => (enumerated.2 decl member).2
  · rw [Format.normal, (Settled.map fun field member => (fielded.2 field member).settled).kept,
      (Settled.map computed.2).kept, (Settled.map validated.2).kept]

end LineReader

theorem settled_of_read {text : List Char} {format : Format} (found : read text = .ok format) :
    format.IsListable ∧ format.normal = format := by
  obtain ⟨⟨value, rest⟩, finished, rfl⟩ := Except.map_eq_ok_iff.mp found
  have clean : CleanLines ⟨0, Text.lines text⟩ := fun line member => Text.feed_not_mem_lines member
  exact (LineReader.format_yields _ value rest clean finished).1

/-- Whatever text a format was read from, its listing is read as that very format. So the listing of
a text that can be read has itself for its listing. -/
theorem read_write_of_read (text : List Char) (format : Format) (found : read text = .ok format) :
    read (write format) = .ok format ∧
      (read (write format)).map write = .ok (write format) := by
  obtain ⟨listable, kept⟩ := settled_of_read found
  have again := read_of_listable listable
  rw [kept] at again
  exact ⟨again, by rw [again]; rfl⟩

/-- An old listing: no imports, a field row that stops after the size, a key in hexadecimal, an
instance that is not said to be a value, bare and single-quoted words, a comment, and carriage
returns. -/
theorem read_write_of_read_old :
    (read (["KSIR1 \r", "name a'b c'\r", "default_endian be # network", "types 0", "attrs 2",
      "attr  x primitive u1 none none",
      "attr y primitive bytes le none none none none none none none 0 xor_const 0X1F", "enums 0",
      "instances 1", "instance i '(un \"__cast__:t\" (int 4))'", "validations 0", " end "].flatMap
        fun line => line.toList ++ ['\n'])).toOption = some {
        name := "ab c"
        order := .big
        fields := [{ id := "x", type := .primitive .u1 }, {
          id := "y"
          type := .primitive .bytes
          order := some .little
          transform := some (.xor 31) }]
        instances := [⟨"i", .value (.unary (.cast "t") (.int 4))⟩] } ∧
    read (write {
        name := "ab c"
        order := .big
        fields := [{ id := "x", type := .primitive .u1 }, {
          id := "y"
          type := .primitive .bytes
          order := some .little
          transform := some (.xor 31) }]
        instances := [⟨"i", .value (.unary (.cast "t") (.int 4))⟩] }) =
      .ok {
        name := "ab c"
        order := .big
        fields := [{ id := "x", type := .primitive .u1 }, {
          id := "y"
          type := .primitive .bytes
          order := some .little
          transform := some (.xor 31) }]
        instances := [⟨"i", .value (.unary (.cast "t") (.int 4))⟩] } := by
  refine (and_iff_left_of_imp fun found => ?_).mpr (by decide +kernel)
  exact (read_write_of_read _ _ (Except.toOption_eq_some_iff.mp found)).1

end Listing

end FormatCompiler
