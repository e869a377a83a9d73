import FormatCompiler.Proofs.ListingReading

/-!
The listing of a format, read again. A listing can be read exactly when no string of the format
holds a line feed and no list is longer than a count can say; what is read then is the normal form
of the format. The listing need not be the one that is written: any of its forms will do.
-/

namespace FormatCompiler

set_option autoImplicit false

/-- Every string of the format stays on its line, and every list can be counted with 64 bits. -/
structure Format.IsListable (format : Format) : Prop where
  oneLine : ∀ string ∈ format.strings, OneLine string
  counted : ∀ size ∈ format.sizes, size < UInt64.size

/-- The condition on a format, part by part. -/
theorem Format.isListable_iff (format : Format) :
    format.IsListable ↔
      (OneLine format.name ∧ (∀ name ∈ format.imports, OneLine name) ∧
        (∀ decl ∈ format.types, ∀ string ∈ decl.strings, OneLine string) ∧
        (∀ field ∈ format.fields, ∀ string ∈ field.strings, OneLine string) ∧
        (∀ decl ∈ format.enums, ∀ string ∈ decl.strings, OneLine string) ∧
        (∀ inst ∈ format.instances, ∀ string ∈ inst.strings, OneLine string) ∧
        (∀ validation ∈ format.validations, ∀ string ∈ validation.strings, OneLine string)) ∧
      (format.imports.length < UInt64.size ∧ format.types.length < UInt64.size ∧
        format.fields.length < UInt64.size ∧ format.enums.length < UInt64.size ∧
        format.instances.length < UInt64.size ∧ format.validations.length < UInt64.size ∧
        (∀ field ∈ format.fields, field.cases.length < UInt64.size) ∧
        (∀ decl ∈ format.enums, decl.values.length < UInt64.size)) := by
  have parts : format.IsListable ↔ (∀ string ∈ format.strings, OneLine string) ∧
      ∀ size ∈ format.sizes, size < UInt64.size :=
    ⟨fun listable => ⟨listable.oneLine, listable.counted⟩, fun both => ⟨both.1, both.2⟩⟩
  have inside : ∀ {α : Type} (items : List α) (strings : α → List String),
      (∀ string ∈ items.flatMap strings, OneLine string) ↔
        ∀ item ∈ items, ∀ string ∈ strings item, OneLine string := by
    intro α items strings
    simp only [List.mem_flatMap]
    grind
  rw [parts]
  simp only [Format.strings, Format.sizes, List.forall_mem_append, List.forall_mem_cons,
    List.forall_mem_map, inside]
  simp [and_assoc]

namespace Listing

namespace LineReader

variable {α β : Type} {wordReader : WordReader β}

/-- The rows of a section behind its header. -/
theorem sectionBody_reads (codec : RowCodec wordReader α) (kind : RowKind) (items : List α) :
    Reads (takeRows kind items.length >>= fun rows => rows.mapM fun row => row.decode wordReader)
      (items.map codec.row) (∀ item ∈ items, codec.Accepts item) (items.map codec.value) := by
  have formed : ∀ row ∈ items.map codec.row, row.WellFormed := by
    simpa using fun item _ => codec.wellFormed item
  have isLine : (∀ row ∈ items.map codec.row, row.IsLine) ↔
      ∀ item ∈ items, ∀ string ∈ codec.strings item, OneLine string := by
    simp only [List.forall_mem_map, (codec.holds _).isLine]
  have taken := takeRows_lines kind _ formed
  have broken := takeRows_broken kind _ formed
  rw [List.length_map] at taken broken
  constructor
  · intro accepted number rest
    rw [bind_apply, taken (isLine.mpr fun item member => (accepted item member).1), Except.bind,
      decode_numbered codec items fun item member => (accepted item member).2, List.length_map]
  · intro rejected number rest
    rw [bind_apply]
    by_cases lines : ∀ row ∈ items.map codec.row, row.IsLine
    · have unreadable : ¬ ∀ item ∈ items, codec.readable item := by
        intro readable
        exact rejected fun item member => ⟨isLine.mp lines item member, readable item member⟩
      obtain ⟨fault, failed⟩ := decode_unreadable codec items unreadable number
        ⟨number + items.length, Text.lines rest⟩
      exact ⟨fault, by rw [taken lines, Except.bind, failed]⟩
    · obtain ⟨fault, failed⟩ := broken lines number rest
      exact ⟨fault, by rw [failed, Except.bind]⟩

theorem sectionSize_reads (name : String) (plain : (Cell.bare name).IsPlain) (size : Nat) :
    Reads (LineReader.sectionSize name) [sectionRow name size] (size < UInt64.size) size :=
  (value_reads (RowCodec.sectionSize name plain) _ _ size).of_iff
    (by simp [RowCodec.Accepts, RowCodec.sectionSize])

theorem sectionRows_reads (codec : RowCodec wordReader α) (name : String) (kind : RowKind)
    (plain : (Cell.bare name).IsPlain) (items : List α) :
    Reads (sectionRows name kind wordReader)
      (sectionRow name items.length :: items.map codec.row)
      (items.length < UInt64.size ∧ ∀ item ∈ items, codec.Accepts item) (items.map codec.value) :=
  (sectionSize_reads name plain items.length).bind (sectionBody_reads codec kind items)

theorem enumValues_reads (values : List EnumValue) :
    Reads (enumValues values.length) (values.map enumValueRow)
      (∀ value ∈ values, OneLine value.name) values := by
  induction values with
  | nil => exact (Reads.pure []).of_iff (by simp)
  | cons value values ih =>
    have first := value_reads RowCodec.enumValue (.truncated .enumValueRow)
      (.badRow .enumValueRow) value
    have whole : Reads (enumValues (values.length + 1))
        ([enumValueRow value] ++ values.map enumValueRow)
        (RowCodec.enumValue.Accepts value ∧ ∀ value ∈ values, OneLine value.name)
        (value :: values) := first.bind (ih.map (value :: ·))
    refine whole.of_iff ?_
    simp [RowCodec.Accepts, RowCodec.enumValue, RowCodec.total]

/-- An enum can be read back: its strings are lines and its values can be counted. -/
def EnumReadable (decl : EnumDecl) : Prop :=
  (∀ string ∈ decl.strings, OneLine string) ∧ decl.values.length < UInt64.size

theorem enums_reads (decls : List EnumDecl) :
    Reads (enums decls.length) (decls.flatMap enumRows) (∀ decl ∈ decls, EnumReadable decl)
      decls := by
  induction decls with
  | nil => exact (Reads.pure []).of_iff (by simp)
  | cons decl decls ih =>
    have head := value_reads RowCodec.enumHead (.truncated .enumRow) (.badRow .enumRow) decl
    have values := enumValues_reads decl.values
    have tail : Reads (enumValues decl.values.length >>= fun values =>
          enums decls.length >>= fun rest => pure ({ name := decl.name, values } :: rest))
        (decl.values.map enumValueRow ++ decls.flatMap enumRows)
        ((∀ value ∈ decl.values, OneLine value.name) ∧ ∀ decl ∈ decls, EnumReadable decl)
        (decl :: decls) := values.bind (ih.map (decl :: ·))
    have whole : Reads (enums (decls.length + 1))
        ([RowCodec.enumHead.row decl] ++ (decl.values.map enumValueRow ++ decls.flatMap enumRows))
        (RowCodec.enumHead.Accepts decl ∧
          (∀ value ∈ decl.values, OneLine value.name) ∧ ∀ decl ∈ decls, EnumReadable decl)
        (decl :: decls) := head.bind tail
    refine whole.of_iff ?_
    simp only [RowCodec.Accepts, RowCodec.enumHead, EnumReadable, EnumDecl.strings,
      List.forall_mem_cons, List.forall_mem_map]
    simp
    grind

/-- A line that is always written the same way. -/
theorem mark_reads (trim : List Char → List Char) (word : String) (fault : RowFault)
    (plain : (Cell.bare word).IsPlain) (kept : trim word.toList = word.toList) :
    Reads (mark trim word fault) [[.bare word]] True () := by
  refine ⟨?_, fun unreadable => absurd trivial unreadable⟩
  intro _ number rest
  have holds := bare_holds word plain
  have line := Row.lines_text [.bare word] holds.wellFormed (holds.isLine.mpr (by simp)) rest
  have text : rowsText [[.bare word]] ++ rest = Row.text [.bare word] ++ '\n' :: rest := by
    simp [rowsText]
  have same : Row.text [.bare word] = word.toList := rfl
  rw [text, line, same]
  unfold mark
  simp only [bind_apply, LineReader.line, Except.bind, Option.map_some, kept, ne_eq,
    not_true_eq_false, ↓reduceIte]
  rfl

theorem firstWord_sectionRow (name : String) (size : Nat) (nonempty : name.toList ≠ [])
    (visible : name.toList.all fun c => !Text.isBlank c) :
    Text.firstWord (sectionRow name size).text = name.toList := by
  have shape : (sectionRow name size).text = name.toList ++ ' ' :: (count size).text := rfl
  have all := List.all_eq_true.mp visible
  have untrimmed : Text.trimStart (name.toList ++ ' ' :: (count size).text) =
      name.toList ++ ' ' :: (count size).text := by
    obtain ⟨c, more, spelled⟩ := List.exists_cons_of_ne_nil nonempty
    have first : Text.isBlank c = false := by simpa using all c (by simp [spelled])
    simp [Text.trimStart, spelled, first]
  rw [shape, Text.firstWord, untrimmed, List.takeWhile_append_of_pos all]
  simp [Text.isBlank]

/-- The first word of a section is its name. -/
theorem peek_section (name : String) (plain : (Cell.bare name).IsPlain)
    (visible : name.toList.all fun c => !Text.isBlank c) (size number : Nat) (rest : List Char) :
    peek ⟨number, Text.lines ((sectionRow name size).text ++ '\n' :: rest)⟩ =
      .ok (some name, ⟨number, Text.lines ((sectionRow name size).text ++ '\n' :: rest)⟩) := by
  have holds := sectionRow_holds name size plain
  have line := Row.lines_text (sectionRow name size) holds.wellFormed
    (holds.isLine.mpr (by simp)) rest
  rw [line, peek, List.head?_cons, Option.map_some, firstWord_sectionRow name size plain.1 visible,
    String.ofList_toList]

theorem imports_reads (names : List String) :
    Reads LineReader.imports
      (sectionRow "imports" names.length :: names.map importRow)
      (names.length < UInt64.size ∧ ∀ name ∈ names, OneLine name) names := by
  have same : (names.length < UInt64.size ∧ ∀ name ∈ names, RowCodec.importName.Accepts name) ↔
      names.length < UInt64.size ∧ ∀ name ∈ names, OneLine name := by
    simp [RowCodec.Accepts, RowCodec.importName, RowCodec.total]
  have whole := (sectionRows_reads RowCodec.importName "imports" .importRow (by decide)
    names).of_iff same
  have opened : ∀ number rest,
      LineReader.imports ⟨number, Text.lines (rowsText
        (sectionRow "imports" names.length :: names.map importRow) ++ rest)⟩ =
      sectionRows "imports" .importRow WordReader.importName ⟨number, Text.lines (rowsText
        (sectionRow "imports" names.length :: names.map importRow) ++ rest)⟩ := by
    intro number rest
    rw [rowsText_cons, LineReader.imports, bind_apply,
      peek_section "imports" (by decide) (by decide)]
    simp only [Except.bind, ↓reduceIte]
  constructor
  · intro readable number rest
    rw [opened]
    simpa [RowCodec.importName, RowCodec.total] using whole.succeeds readable number rest
  · intro unreadable number rest
    rw [opened]
    exact whole.fails unreadable number rest

/-- Imports in either form. The row behind them tells the reader that they are missing. -/
theorem imports_then_types {names : List String} {importRows : List Row}
    (form : ImportForm names importRows) {next : List String → LineReader β} {size : Nat}
    {rows more : List Row} {readable : Prop} {result : β}
    (behind : Reads (next names) (sectionRow "types" size :: rows ++ more) readable result) :
    Reads (LineReader.imports >>= next) (importRows ++ (sectionRow "types" size :: rows ++ more))
      ((names.length < UInt64.size ∧ ∀ name ∈ names, OneLine name) ∧ readable) result := by
  cases form with
  | written => exact (imports_reads names).bind behind
  | missing =>
    have skipped : ∀ number rest,
        (LineReader.imports >>= next) ⟨number, Text.lines (rowsText
          (sectionRow "types" size :: rows ++ more) ++ rest)⟩ =
        next [] ⟨number, Text.lines (rowsText
          (sectionRow "types" size :: rows ++ more) ++ rest)⟩ := by
      intro number rest
      rw [List.cons_append, rowsText_cons, LineReader.imports, bind_apply, bind_apply,
        peek_section "types" (by decide) (by decide)]
      rfl
    have same : readable ↔ (([] : List String).length < UInt64.size ∧
        ∀ name ∈ ([] : List String), OneLine name) ∧ readable := by
      simp
    refine Reads.of_iff ⟨?_, ?_⟩ same
    · intro readable number rest
      rw [List.nil_append, skipped]
      exact behind.succeeds readable number rest
    · intro unreadable number rest
      rw [List.nil_append, skipped]
      exact behind.fails unreadable number rest

theorem fields_reads {fields : List Field} {rows : List Row}
    (forms : List.Forall₂ FieldForm fields rows) :
    Reads (sectionRows "attrs" .fieldRow WordReader.field)
      (sectionRow "attrs" fields.length :: rows)
      (fields.length < UInt64.size ∧ ∀ field ∈ fields,
        (∀ string ∈ field.strings, OneLine string) ∧ field.cases.length < UInt64.size)
      (fields.map Field.normal) := by
  obtain ⟨pairs, rfl, rfl⟩ := exists_forms forms
  have whole := sectionRows_reads RowCodec.field "attrs" .fieldRow (by decide) pairs
  rw [List.length_map, List.forall_mem_map, List.map_map]
  exact whole

theorem instances_reads {instances : List Instance} {rows : List Row}
    (forms : List.Forall₂ InstanceForm instances rows) :
    Reads (sectionRows "instances" .instanceRow WordReader.instanceDecl)
      (sectionRow "instances" instances.length :: rows)
      (instances.length < UInt64.size ∧
        ∀ inst ∈ instances, ∀ string ∈ inst.strings, OneLine string)
      (instances.map Instance.normal) := by
  obtain ⟨pairs, rfl, rfl⟩ := exists_forms forms
  have whole := sectionRows_reads RowCodec.instanceDecl "instances" .instanceRow (by decide) pairs
  rw [List.length_map, List.forall_mem_map, List.map_map]
  exact whole.of_iff (by simp [RowCodec.Accepts, RowCodec.instanceDecl, RowCodec.total])

/-- Every form of a format is read as the writer's own: the normal form is found, or nothing. -/
theorem form_reads {format : Format} {rows : List Row} (form : Form format rows) :
    Reads LineReader.format rows format.IsListable format.normal := by
  cases form with
  | @rows imports fieldRows instanceRows importForm fieldForms instanceForms =>
    have opened := mark_reads Text.trimEnd header .noHeader (by decide) (by decide)
    have name := value_reads RowCodec.formatName .badName .badName format.name
    have order := value_reads RowCodec.formatOrder .badOrder .badOrder format.order
    have types := sectionRows_reads RowCodec.typeDecl "types" .typeRow (by decide) format.types
    have fields := fields_reads fieldForms
    have enumCount := sectionSize_reads "enums" (by decide) format.enums.length
    have enums := enums_reads format.enums
    have instances := instances_reads instanceForms
    have validations := sectionRows_reads RowCodec.validation "validations" .validationRow
      (by decide) format.validations
    have closed := mark_reads Text.trim endMark .noEnd (by decide) (by decide)
    have kept : RowCodec.typeDecl.value = id := rfl
    rw [kept, List.map_id] at types
    -- One group of rows for each part that is read.
    suffices grouped : Reads LineReader.format
        ([[.bare header]] ++ ([RowCodec.formatName.row format.name] ++
          ([RowCodec.formatOrder.row format.order] ++ (imports ++
          (sectionRow "types" format.types.length :: format.types.map RowCodec.typeDecl.row ++
          (sectionRow "attrs" format.fields.length :: fieldRows ++
          ([sectionRow "enums" format.enums.length] ++ (format.enums.flatMap enumRows ++
          (sectionRow "instances" format.instances.length :: instanceRows ++
          (sectionRow "validations" format.validations.length ::
            format.validations.map RowCodec.validation.row ++ [[.bare endMark]]))))))))))
        format.IsListable format.normal by
      simpa [RowCodec.formatName, RowCodec.formatOrder, RowCodec.typeDecl, RowCodec.validation,
        RowCodec.total] using grouped
    unfold LineReader.format
    refine Reads.of_iff (opened.bind (name.bind (order.bind (imports_then_types importForm
      (types.bind (fields.bind (enumCount.bind (enums.bind (instances.bind (validations.bind
        (closed.map fun _ => format.normal))))))))))) ?_
    simp only [RowCodec.Accepts, RowCodec.formatName, RowCodec.formatOrder, RowCodec.typeDecl,
      RowCodec.validation, RowCodec.total, EnumReadable, Format.isListable_iff,
      List.forall_mem_singleton, and_true, true_and]
    grind

end LineReader

/-- A listing is read line by line, from its first line. -/
theorem read_rowsText (rows : List Row) :
    read (rowsText rows) =
      (LineReader.format ⟨0, Text.lines (rowsText rows ++ [])⟩).map Prod.fst := by
  rw [List.append_nil]
  rfl

theorem read_form {format : Format} {rows : List Row} (form : Form format rows)
    (listable : format.IsListable) : read (rowsText rows) = .ok format.normal := by
  rw [read_rowsText, (LineReader.form_reads form).succeeds listable 0 []]
  rfl

theorem read_form_of_unlistable {format : Format} {rows : List Row} (form : Form format rows)
    (unlistable : ¬ format.IsListable) : ∃ fault, read (rowsText rows) = .error fault := by
  obtain ⟨fault, failed⟩ := (LineReader.form_reads form).fails unlistable 0 []
  exact ⟨fault, by rw [read_rowsText, failed]; rfl⟩

theorem read_of_listable {format : Format} (listable : format.IsListable) :
    read (write format) = .ok format.normal :=
  read_form (form_rows format) listable

theorem read_of_unlistable {format : Format} (unlistable : ¬ format.IsListable) :
    ∃ fault, read (write format) = .error fault :=
  read_form_of_unlistable (form_rows format) unlistable

/-- What becomes of a format in its listing, whether it keeps the rules or not. One line feed in
any of its strings makes the listing malformed. Without one the normal form is read back, unless a
list has more entries than 64 bits count. Nothing but the normal form is lost: its listing is the
same. -/
theorem read_write_determined (format : Format) :
    ((∃ string ∈ format.strings, '\n' ∈ string.toList) →
      ∃ fault, read (write format) = .error fault) ∧
    ((∀ string ∈ format.strings, '\n' ∉ string.toList) →
      if ∀ size ∈ format.sizes, size < UInt64.size then read (write format) = .ok format.normal
      else ∃ fault, read (write format) = .error fault) ∧
    write format.normal = write format := by
  refine ⟨?_, ?_, write_of_normal format⟩
  · rintro ⟨string, stored, feed⟩
    exact read_of_unlistable fun listable => listable.oneLine string stored feed
  · intro oneLine
    split
    · next counted => exact read_of_listable ⟨oneLine, counted⟩
    · next uncounted => exact read_of_unlistable fun listable => uncounted listable.counted

/-- Quotes, backslashes and the mark of a comment survive; the encoding `none` and a cast to nothing
take their normal form. A feed in an operator is fatal. -/
theorem read_write_determined_marks :
    read (write {
      name := "a \"b\\c #$"
      order := .big
      fields := [{
        id := "x"
        type := .primitive .str
        size := some (.unary (.cast "") (.name "\r y"))
        encoding := some "none" }] }) =
      .ok {
        name := "a \"b\\c #$"
        order := .big
        fields := [{
          id := "x"
          type := .primitive .str
          size := some (.unary (.sign "__cast__:") (.name "\r y")) }] } ∧
    ∃ fault, read (write {
      name := "a"
      order := .big
      instances := [⟨"i", .value (.binary "+\n" (.int 1) (.int 2))⟩] }) = .error fault := by
  constructor
  · have found := (read_write_determined {
      name := "a \"b\\c #$"
      order := .big
      fields := [{
        id := "x"
        type := .primitive .str
        size := some (.unary (.cast "") (.name "\r y"))
        encoding := some "none" }] }).2.1 (by decide)
    rw [if_pos (by decide)] at found
    exact found
  · exact (read_write_determined _).1 ⟨"+\n", by decide, by decide⟩

/-- However much of a listing is left to its defaults, it is read as the whole listing is. Without a
line feed in a string both give the normal form of the format, unless a list has more entries than
64 bits count; then neither can be read. -/
theorem read_form_eq_read_write (format : Format) (rows : List Row) (form : Form format rows)
    (oneLine : ∀ string ∈ format.strings, '\n' ∉ string.toList) :
    if ∀ size ∈ format.sizes, size < UInt64.size then
      read (rowsText rows) = read (write format) ∧ read (write format) = .ok format.normal
    else
      (∃ fault, read (rowsText rows) = .error fault) ∧
        ∃ fault, read (write format) = .error fault := by
  split
  · next counted =>
    have listable : format.IsListable := ⟨oneLine, counted⟩
    have whole := read_of_listable listable
    exact ⟨(read_form form listable).trans whole.symm, whole⟩
  · next uncounted =>
    have unlistable : ¬ format.IsListable := fun listable => uncounted listable.counted
    exact ⟨read_form_of_unlistable form unlistable, read_of_unlistable unlistable⟩

/-- A field cut at each of the three places, a key in hexadecimal, an unmarked instance, and no
section of imports. -/
theorem read_form_eq_read_write_short :
    read (["KSIR1", "name \"s\"", "default_endian le", "types 0", "attrs 4",
        "attr \"a\" primitive \"u1\" none \"none\"",
        "attr \"b\" primitive \"str\" none \"(int 4)\" \"none\" \"UTF-8\"",
        "attr \"c\" primitive \"u2\" be \"none\" \"none\" \"none\" " ++
          "\"(name \\\"a\\\")\" none \"none\" \"none\" 0",
        "attr \"d\" primitive \"u1\" none \"none\" \"none\" \"none\" \"none\" none " ++
          "\"none\" \"none\" 0 xor_const 0X1f",
        "enums 0", "instances 1", "instance \"i\" \"(int 7)\"", "validations 0",
        "end"].flatMap fun line => line.toList ++ ['\n']) =
      .ok {
        name := "s"
        order := .little
        fields := [
          { id := "a", type := .primitive .u1 },
          { id := "b", type := .primitive .str, size := some (.int 4), encoding := some "UTF-8" },
          { id := "c", type := .primitive .u2, order := some .big, condition := some (.name "a") },
          { id := "d", type := .primitive .u1, transform := some (.xor 31) }]
        instances := [⟨"i", .value (.int 7)⟩] } := by
  have key : TransformForm (some (.xor 31)) [.bare "xor_const", .bare "0X1f"] :=
    .hexadecimal 'X' (.inr rfl) (.digits [('1', 1), ('f', 15)] (by decide) (by decide))
  have found := read_form_eq_read_write {
    name := "s"
    order := .little
    fields := [
      { id := "a", type := .primitive .u1 },
      { id := "b", type := .primitive .str, size := some (.int 4), encoding := some "UTF-8" },
      { id := "c", type := .primitive .u2, order := some .big, condition := some (.name "a") },
      { id := "d", type := .primitive .u1, transform := some (.xor 31) }]
    instances := [⟨"i", .value (.int 7)⟩] } _
    (.rows .missing
      (.cons (.toSize ⟨⟨rfl, rfl, rfl, rfl, rfl, rfl⟩, rfl, rfl⟩)
        (.cons (.toEncoding ⟨rfl, rfl, rfl, rfl, rfl, rfl⟩)
          (.cons (.toCases rfl) (.cons (.whole key) .nil))))
      (.cons (.unmarked "i" (.int 7)) .nil))
    (by decide)
  rw [if_pos (by decide)] at found
  refine Eq.trans (congrArg read ?_) (found.1.trans found.2)
  decide +kernel

end Listing

end FormatCompiler
