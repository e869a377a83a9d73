import FormatCompiler.Proofs.RowReading
import FormatCompiler.Proofs.StoredStrings

/-!
Written listings, read again. For each part of a listing there is a condition under which its
reader finds what was written and stops behind it; where the condition fails, so does the reader.
The conditions of all parts together decide whether a listing can be read.
-/

namespace FormatCompiler.Listing

set_option autoImplicit false

/-- Rows as they stand in a listing. -/
def rowsText (rows : List Row) : List Char :=
  rows.flatMap fun row => row.text ++ ['\n']

theorem rowsText_append (front back : List Row) :
    rowsText (front ++ back) = rowsText front ++ rowsText back := by
  simp [rowsText]

/-- How one kind of row is written and what its reader makes of it. -/
structure RowCodec {β : Type} (reader : WordReader β) (α : Type) where
  row : α → Row
  /-- The strings of an item that its row holds. -/
  strings : α → List String
  value : α → β
  /-- Whether the reader takes the words of the row. -/
  readable : α → Prop
  nonempty : ∀ item, row item ≠ []
  holds : ∀ item, (row item).Holds (strings item)
  succeeds : ∀ item, readable item → reader (row item).contents = .ok (value item, [])
  fails : ∀ item, ¬ readable item → ∃ fault, reader (row item).contents = .error fault

namespace RowCodec

variable {α β : Type} {reader : WordReader β}

/-- The row of an item is a line, and its words can be read. -/
def Accepts (codec : RowCodec reader α) (item : α) : Prop :=
  (∀ string ∈ codec.strings item, OneLine string) ∧ codec.readable item

theorem wellFormed (codec : RowCodec reader α) (item : α) : (codec.row item).WellFormed :=
  ⟨codec.nonempty item, (codec.holds item).plain⟩

/-- The codec of a row whose words can always be read. -/
def total (reader : WordReader β) (row : α → Row) (strings : α → List String) (value : α → β)
    (nonempty : ∀ item, row item ≠ []) (holds : ∀ item, (row item).Holds (strings item))
    (succeeds : ∀ item, reader (row item).contents = .ok (value item, [])) :
    RowCodec reader α where
  row := row
  strings := strings
  value := value
  readable _ := True
  nonempty := nonempty
  holds := holds
  succeeds item _ := succeeds item
  fails _ unreadable := absurd trivial unreadable

def importName : RowCodec WordReader.importName String :=
  total _ importRow (fun name => [name]) id (by simp [importRow]) importRow_holds
    WordReader.importName_row

def typeDecl : RowCodec WordReader.typeDecl TypeDecl :=
  total _ typeRow TypeDecl.strings id (by simp [typeRow]) typeRow_holds WordReader.typeDecl_row

def enumValue : RowCodec WordReader.enumValue EnumValue :=
  total _ enumValueRow (fun value => [value.name]) id (by simp [enumValueRow]) enumValueRow_holds
    WordReader.enumValue_row

/-- An instance in any of its forms. -/
def instanceDecl :
    RowCodec WordReader.instanceDecl { form : Instance × Row // InstanceForm form.1 form.2 } :=
  total _ (fun form => form.1.2) (fun form => form.1.1.strings) (fun form => form.1.1.normal)
    (fun form => form.2.ne_nil) (fun form => instanceForm_holds form.2)
    (fun form => WordReader.instanceDecl_form form.2)

def validation : RowCodec WordReader.validation Validation :=
  total _ validationRow Validation.strings Validation.normal (by simp [validationRow])
    validationRow_holds WordReader.validation_row

def formatName : RowCodec WordReader.formatName String :=
  total _ (fun name => [.bare "name", .quoted name]) (fun name => [name]) id (by simp)
    (fun name => (bare_holds "name" (by decide)).cons (quoted_holds name))
    WordReader.formatName_row

def formatOrder : RowCodec WordReader.formatOrder ByteOrder :=
  total _ (fun order => [.bare "default_endian", .bare order.word]) (fun _ => []) id (by simp)
    (fun order => (bare_holds "default_endian" (by decide)).cons
      (bare_holds order.word (by cases order <;> decide)))
    WordReader.formatOrder_row

/-- A field in any of its forms. -/
def field : RowCodec WordReader.field { form : Field × Row // FieldForm form.1 form.2 } where
  row form := form.1.2
  strings form := form.1.1.strings
  value form := form.1.1.normal
  readable form := form.1.1.cases.length < UInt64.size
  nonempty form := form.2.ne_nil
  holds form := fieldForm_holds form.2
  succeeds form := WordReader.field_row form.2
  fails form large := ⟨_, WordReader.field_row_large form.2 large⟩

def enumHead : RowCodec WordReader.enumHead EnumDecl where
  row decl := [.bare "enum", .quoted decl.name, count decl.values.length]
  strings decl := [decl.name]
  value decl := (decl.name, decl.values.length)
  readable decl := decl.values.length < UInt64.size
  nonempty _ := by simp
  holds := enumHead_holds
  succeeds := WordReader.enumHead_row
  fails decl large := ⟨_, WordReader.enumHead_row_large decl large⟩

def sectionSize (name : String) (plain : (Cell.bare name).IsPlain) :
    RowCodec (WordReader.sectionSize name) Nat where
  row := sectionRow name
  strings _ := []
  value := id
  readable size := size < UInt64.size
  nonempty _ := by simp [sectionRow]
  holds size := sectionRow_holds name size plain
  succeeds := WordReader.sectionSize_row name
  fails size large := ⟨_, WordReader.sectionSize_row_large name size large⟩

end RowCodec

namespace LineReader

theorem bind_apply {α β : Type} (reader : LineReader α) (next : α → LineReader β) (lines : Lines) :
    (reader >>= next) lines = (reader lines).bind fun result => next result.1 result.2 := rfl

theorem pure_apply {α : Type} (value : α) (lines : Lines) :
    (pure value : LineReader α) lines = .ok (value, lines) := rfl

theorem lift_apply {α : Type} (result : Except Malformed α) (lines : Lines) :
    (liftM result : LineReader α) lines = result.bind fun value => .ok (value, lines) := rfl

/-- Standing before some rows, a reader finds a value and stops behind the rows if they are
readable, and fails if they are not. -/
structure Reads {α : Type} (reader : LineReader α) (rows : List Row) (readable : Prop)
    (value : α) : Prop where
  succeeds : readable → ∀ number rest,
    reader ⟨number, Text.lines (rowsText rows ++ rest)⟩ =
      .ok (value, ⟨number + rows.length, Text.lines rest⟩)
  fails : ¬ readable → ∀ number rest, ∃ fault,
    reader ⟨number, Text.lines (rowsText rows ++ rest)⟩ = .error fault

variable {α β : Type} {reader : LineReader α} {rows : List Row} {readable : Prop} {value : α}

theorem Reads.pure (value : α) : Reads (Pure.pure value) [] True value :=
  ⟨fun _ _ _ => rfl, fun unreadable => absurd trivial unreadable⟩

/-- Readers one after the other: the second starts where the first has stopped. -/
theorem Reads.bind {next : α → LineReader β} {more : List Row} {also : Prop} {result : β}
    (first : Reads reader rows readable value) (second : Reads (next value) more also result) :
    Reads (reader >>= next) (rows ++ more) (readable ∧ also) result := by
  constructor
  · rintro ⟨left, right⟩ number rest
    rw [bind_apply, rowsText_append, List.append_assoc, first.succeeds left, Except.bind,
      second.succeeds right, List.length_append, Nat.add_assoc]
  · intro unreadable number rest
    rw [bind_apply, rowsText_append, List.append_assoc]
    by_cases left : readable
    · have right : ¬ also := fun right => unreadable ⟨left, right⟩
      obtain ⟨fault, failed⟩ := second.fails right (number + rows.length) rest
      exact ⟨fault, by rw [first.succeeds left, Except.bind, failed]⟩
    · obtain ⟨fault, failed⟩ := first.fails left number (rowsText more ++ rest)
      exact ⟨fault, by rw [failed, Except.bind]⟩

theorem Reads.map (reads : Reads reader rows readable value) (change : α → β) :
    Reads (reader >>= fun found => Pure.pure (change found)) rows readable (change value) := by
  have whole : Reads (reader >>= fun found => Pure.pure (change found)) (rows ++ [])
      (readable ∧ True) (change value) := reads.bind (Reads.pure (change value))
  simpa using whole

theorem Reads.of_iff {same : Prop} (reads : Reads reader rows readable value)
    (iff : readable ↔ same) : Reads reader rows same value :=
  propext iff ▸ reads

/-! ### Rows -/

theorem row_line (missing bad : RowFault) (row : Row) (formed : row.WellFormed)
    (line : row.IsLine) (number : Nat) (rest : List Char) :
    LineReader.row missing bad ⟨number, Text.lines (row.text ++ '\n' :: rest)⟩ =
      .ok (⟨number + 1, String.ofList row.text, row.contents⟩, ⟨number + 1, Text.lines rest⟩) := by
  have words : (row.map fun cell => cell.content.toList).map String.ofList = row.contents := by
    simp [Row.contents]
  unfold LineReader.row
  simp only [bind_apply, row.lines_text formed line, LineReader.line, Except.bind,
    row.words_text formed, words, pure_apply]

theorem row_broken (missing bad : RowFault) (row : Row) (formed : row.WellFormed)
    (broken : ¬ row.IsLine) (number : Nat) (rest : List Char) :
    ∃ fault, LineReader.row missing bad ⟨number, Text.lines (row.text ++ '\n' :: rest)⟩ =
      .error fault := by
  obtain ⟨cut, more, lines, unclosed⟩ := row.lines_broken formed broken rest
  refine ⟨⟨number + 1, String.ofList cut, bad⟩, ?_⟩
  unfold LineReader.row
  simp only [bind_apply, lines, LineReader.line, Except.bind, unclosed]
  rfl

theorem rowsText_cons (row : Row) (rows : List Row) (rest : List Char) :
    rowsText (row :: rows) ++ rest = row.text ++ '\n' :: (rowsText rows ++ rest) := by
  simp [rowsText]

variable {wordReader : WordReader β}

theorem decode_of_ok {value : β} {words : List String} (row : WordRow)
    (read : wordReader row.words = .ok (value, words)) : row.decode wordReader = .ok value := by
  rw [WordRow.decode, StateT.run, read]

theorem decode_of_error {fault : RowFault} (row : WordRow)
    (read : wordReader row.words = .error fault) :
    row.decode wordReader = .error ⟨row.line, row.text, fault⟩ := by
  rw [WordRow.decode, StateT.run, read]

theorem value_reads (codec : RowCodec wordReader α) (missing bad : RowFault) (item : α) :
    Reads (LineReader.value missing bad wordReader) [codec.row item] (codec.Accepts item)
      (codec.value item) := by
  have formed := codec.wellFormed item
  have isLine := (codec.holds item).isLine
  constructor
  · rintro ⟨strings, readable⟩ number rest
    have decoded := decode_of_ok
      ⟨number + 1, String.ofList (codec.row item).text, (codec.row item).contents⟩
      (codec.succeeds item readable)
    rw [rowsText_cons, LineReader.value, bind_apply,
      row_line missing bad _ formed (isLine.mpr strings), Except.bind, lift_apply, decoded]
    rfl
  · intro unreadable number rest
    rw [rowsText_cons, LineReader.value, bind_apply]
    by_cases strings : ∀ string ∈ codec.strings item, OneLine string
    · obtain ⟨fault, failed⟩ := codec.fails item fun readable => unreadable ⟨strings, readable⟩
      have undecoded := decode_of_error
        ⟨number + 1, String.ofList (codec.row item).text, (codec.row item).contents⟩ failed
      rw [row_line missing bad _ formed (isLine.mpr strings), Except.bind, lift_apply, undecoded]
      exact ⟨_, rfl⟩
    · obtain ⟨fault, failed⟩ := row_broken missing bad _ formed
        (fun line => strings (isLine.mp line)) number (rowsText [] ++ rest)
      exact ⟨fault, by rw [failed, Except.bind]⟩

/-! ### Sections -/

/-- The rows as they are held between cutting them into words and reading them. -/
def numbered : Nat → List Row → List WordRow
  | _, [] => []
  | number, row :: rows =>
    ⟨number + 1, String.ofList row.text, row.contents⟩ :: numbered (number + 1) rows

theorem takeRows_lines (kind : RowKind) (rows : List Row) (formed : ∀ row ∈ rows, row.WellFormed)
    (lines : ∀ row ∈ rows, row.IsLine) (number : Nat) (rest : List Char) :
    takeRows kind rows.length ⟨number, Text.lines (rowsText rows ++ rest)⟩ =
      .ok (numbered number rows, ⟨number + rows.length, Text.lines rest⟩) := by
  induction rows generalizing number with
  | nil => rfl
  | cons row rows ih =>
    have others := ih (fun other member => formed other (by simp [member]))
      (fun other member => lines other (by simp [member])) (number + 1)
    rw [rowsText_cons, List.length_cons, takeRows, bind_apply,
      row_line _ _ row (formed row (by simp)) (lines row (by simp)), Except.bind, bind_apply,
      others, Except.bind, pure_apply, numbered]
    simp only [Nat.add_assoc, Nat.add_comm 1]

theorem takeRows_broken (kind : RowKind) (rows : List Row) (formed : ∀ row ∈ rows, row.WellFormed)
    (broken : ¬ ∀ row ∈ rows, row.IsLine) (number : Nat) (rest : List Char) :
    ∃ fault, takeRows kind rows.length ⟨number, Text.lines (rowsText rows ++ rest)⟩ =
      .error fault := by
  induction rows generalizing number with
  | nil => exact absurd (by simp) broken
  | cons row rows ih =>
    rw [rowsText_cons, List.length_cons, takeRows, bind_apply]
    by_cases line : row.IsLine
    · have others : ¬ ∀ other ∈ rows, other.IsLine := by
        intro lines
        exact broken (List.forall_mem_cons.mpr ⟨line, lines⟩)
      obtain ⟨fault, failed⟩ := ih (fun other member => formed other (by simp [member])) others
        (number + 1)
      refine ⟨fault, ?_⟩
      rw [row_line _ _ row (formed row (by simp)) line, Except.bind, bind_apply, failed,
        Except.bind]
    · obtain ⟨fault, failed⟩ := row_broken (.truncated kind) (.badRow kind) row
        (formed row (by simp)) line number (rowsText rows ++ rest)
      exact ⟨fault, by rw [failed, Except.bind]⟩

theorem decode_numbered (codec : RowCodec wordReader α) (items : List α)
    (readable : ∀ item ∈ items, codec.readable item) (number : Nat) (lines : Lines) :
    ((numbered number (items.map codec.row)).mapM fun row => row.decode wordReader : LineReader _)
      lines = .ok (items.map codec.value, lines) := by
  induction items generalizing number with
  | nil => rfl
  | cons item items ih =>
    have others := ih (fun other member => readable other (by simp [member])) (number + 1)
    have decoded := decode_of_ok
      ⟨number + 1, String.ofList (codec.row item).text, (codec.row item).contents⟩
      (codec.succeeds item (readable item (by simp)))
    rw [List.map_cons, numbered, List.mapM_cons, bind_apply, lift_apply, decoded]
    simp only [Except.bind, bind_apply, others, pure_apply, List.map_cons]

theorem decode_unreadable (codec : RowCodec wordReader α) (items : List α)
    (unreadable : ¬ ∀ item ∈ items, codec.readable item) (number : Nat) (lines : Lines) :
    ∃ fault, ((numbered number (items.map codec.row)).mapM fun row => row.decode wordReader :
      LineReader _) lines = .error fault := by
  induction items generalizing number with
  | nil => exact absurd (by simp) unreadable
  | cons item items ih =>
    rw [List.map_cons, numbered, List.mapM_cons, bind_apply, lift_apply]
    by_cases readable : codec.readable item
    · have others : ¬ ∀ other ∈ items, codec.readable other := by
        intro rest
        exact unreadable (List.forall_mem_cons.mpr ⟨readable, rest⟩)
      have decoded := decode_of_ok
        ⟨number + 1, String.ofList (codec.row item).text, (codec.row item).contents⟩
        (codec.succeeds item readable)
      obtain ⟨fault, failed⟩ := ih others (number + 1)
      refine ⟨fault, ?_⟩
      rw [decoded]
      simp only [Except.bind, bind_apply, failed]
    · obtain ⟨fault, failed⟩ := codec.fails item readable
      have undecoded := decode_of_error
        ⟨number + 1, String.ofList (codec.row item).text, (codec.row item).contents⟩ failed
      rw [undecoded]
      exact ⟨_, rfl⟩

end LineReader

end FormatCompiler.Listing
