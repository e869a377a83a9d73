import FormatCompiler.Listing.Reader
import FormatCompiler.Proofs.NormalForm
import FormatCompiler.Proofs.RowForms

/-!
The words of a written row, read again. Each reader takes exactly the words that the writer gives
for a value and finds its normal form. A row fails only where it counts more than 64 bits hold.
-/

namespace FormatCompiler.Listing

set_option autoImplicit false

/-- The words that a reader finds in a row. -/
def Row.contents (row : Row) : List String :=
  row.map Cell.content

namespace WordReader

theorem bind_apply {α β : Type} (reader : WordReader α) (next : α → WordReader β)
    (words : List String) :
    (reader >>= next) words = (reader words).bind fun result => next result.1 result.2 := rfl

theorem pure_apply {α : Type} (value : α) (words : List String) :
    (pure value : WordReader α) words = .ok (value, words) := rfl

theorem lift_apply {α : Type} (result : Except RowFault α) (words : List String) :
    (liftM result : WordReader α) words = result.bind fun value => .ok (value, words) := rfl

theorem word_cons (bad : RowFault) (first : String) (rest : List String) :
    word bad (first :: rest) = .ok (first, rest) := rfl

theorem atEnd_cons (first : String) (rest : List String) :
    atEnd (first :: rest) = .ok (false, first :: rest) := rfl

theorem finish_nil (bad : RowFault) : finish bad [] = .ok ((), []) := rfl

theorem keyword_cons (bad : RowFault) (expected : String) (rest : List String) :
    keyword bad expected (expected :: rest) = .ok ((), rest) := by
  simp only [keyword, bind_apply, word_cons, Except.bind, ne_eq, not_true_eq_false, ↓reduceIte]
  rfl

theorem known_cons {α : Type} (bad : RowFault) (meaning : String → Option α)
    (unknown : String → RowFault) (first : String) (rest : List String) (value : α)
    (means : meaning first = some value) :
    known bad meaning unknown (first :: rest) = .ok (value, rest) := by
  simp only [known, bind_apply, word_cons, Except.bind, means]
  rfl

theorem number_cons {α : Type} (bad : RowFault) (meaning : List Char → Option α) (first : String)
    (rest : List String) (value : α) (means : meaning first.toList = some value) :
    number bad meaning (first :: rest) = .ok (value, rest) :=
  known_cons bad _ _ first rest value means

theorem number_of_count (bad : RowFault) (size : Nat) (rest : List String)
    (fits : size < UInt64.size) :
    number bad Text.readCount ((count size).content :: rest) = .ok (size, rest) := by
  apply number_cons
  rw [count, Cell.content, Text.readCount_showNat, if_pos fits]

/-- A count beyond 64 bits is no count. -/
theorem number_of_large (bad : RowFault) (size : Nat) (rest : List String)
    (large : ¬ size < UInt64.size) :
    number bad Text.readCount ((count size).content :: rest) = .error bad := by
  have unread : Text.readCount (count size).content.toList = none := by
    rw [count, Cell.content, Text.readCount_showNat, if_neg large]
  simp only [number, known, bind_apply, word_cons, Except.bind, unread]
  rfl

theorem exprOf_text (expr : Expr) : exprOf (String.ofList expr.text) = .ok expr.normal := by
  rw [exprOf, String.toList_ofList, Expr.read_text]
  rfl

theorem expr_cons (bad : RowFault) (expr : Expr) (rest : List String) :
    WordReader.expr bad ((exprCell expr).content :: rest) = .ok (expr.normal, rest) := by
  simp only [WordReader.expr, exprCell, Cell.content, bind_apply, word_cons, lift_apply,
    exprOf_text, Except.bind]

theorem optional_absent {α : Type} (bad : RowFault) (meaning : String → Except RowFault α)
    (rest : List String) : optional bad meaning (absent :: rest) = .ok (none, rest) := by
  simp only [optional, bind_apply, word_cons, Except.bind, ↓reduceIte]
  rfl

theorem optional_cons {α : Type} (bad : RowFault) (meaning : String → Except RowFault α)
    (first : String) (rest : List String) (value : α) (present : first ≠ absent)
    (means : meaning first = .ok value) :
    optional bad meaning (first :: rest) = .ok (some value, rest) := by
  simp only [optional, bind_apply, word_cons, Except.bind, present, ↓reduceIte, lift_apply, means]
  rfl

/-- The text of an expression starts with a parenthesis, so it is none of the words of a row. -/
theorem text_ne (expr : Expr) {word : String} (other : word.toList.head? ≠ some '(') :
    String.ofList expr.text ≠ word := by
  have start : expr.text.head? = some '(' := by
    cases expr <;> rfl
  rintro rfl
  rw [String.toList_ofList] at other
  exact other start

theorem optionalExpr_cons (bad : RowFault) (expr : Option Expr) (rest : List String) :
    WordReader.optionalExpr bad ((Listing.optionalExpr expr).content :: rest) =
      .ok (expr.map Expr.normal, rest) := by
  cases expr with
  | none => exact optional_absent bad exprOf rest
  | some expr =>
    exact optional_cons bad exprOf _ rest _ (text_ne expr (by decide)) (exprOf_text expr)

theorem optionalText_cons (bad : RowFault) (text : Option String) (rest : List String) :
    WordReader.optionalText bad ((Listing.optionalText text).content :: rest) =
      .ok (normalText text, rest) := by
  cases text with
  | none => exact optional_absent bad .ok rest
  | some text =>
    rw [normalText, Option.filter_some]
    split
    · next other => exact optional_cons bad .ok text rest text (by simpa using other) rfl
    · next same =>
      have mark : text = absent := by simpa using same
      rw [mark]
      exact optional_absent bad .ok rest

theorem orderOf_word (order : ByteOrder) : orderOf order.word = .ok order := by
  cases order <;> rfl

theorem optionalOrder_cons (bad : RowFault) (order : Option ByteOrder) (rest : List String) :
    WordReader.optionalOrder bad ((Listing.optionalOrder order).content :: rest) =
      .ok (order, rest) := by
  cases order with
  | none => exact optional_absent bad orderOf rest
  | some order =>
    have present : order.word ≠ absent := by cases order <;> decide
    exact optional_cons bad orderOf _ rest _ present (orderOf_word order)

theorem ofWord_primitive (type : Primitive) : Primitive.ofWord? type.word = some type := by
  cases type <;> decide

theorem ofWord_repetition (repetition : Repetition) :
    Repetition.ofWord? repetition.word = some repetition := by
  cases repetition <;> decide

theorem typeRef_cells (bad : RowFault) (type : TypeRef) (rest : List String) :
    typeRef bad (Row.contents (typeCells type) ++ rest) = .ok (type, rest) := by
  cases type with
  | primitive type =>
    simp only [Row.contents, typeCells, List.map_cons, List.map_nil, Cell.content, List.cons_append,
      List.nil_append, typeRef, bind_apply, word_cons, Except.bind, ↓reduceIte, ofWord_primitive]
    rfl
  | named name => rfl

theorem switchCase_cells (bad : RowFault) (case : SwitchCase) (rest : List String) :
    switchCase bad (Row.contents (caseCells case) ++ rest) = .ok (case.normal, rest) := by
  obtain ⟨value, type⟩ := case
  have named := typeRef_cells bad type rest
  cases value with
  | none =>
    change ((word bad >>= _) (otherwise :: (Row.contents (typeCells type) ++ rest)) :
      Except _ _) = _
    simp only [bind_apply, word_cons, Except.bind, named, ↓reduceIte]
    rfl
  | some value =>
    have other : String.ofList value.text ≠ otherwise := text_ne value (by decide)
    change ((word bad >>= _)
      (String.ofList value.text :: (Row.contents (typeCells type) ++ rest)) : Except _ _) = _
    simp only [bind_apply, word_cons, Except.bind, named, other, ↓reduceIte, lift_apply,
      exprOf_text]
    rfl

theorem switchCases_cells (bad : RowFault) (cases : List SwitchCase) (rest : List String) :
    switchCases bad cases.length (Row.contents (cases.flatMap caseCells) ++ rest) =
      .ok (cases.map SwitchCase.normal, rest) := by
  induction cases with
  | nil => rfl
  | cons case cases ih =>
    have words : Row.contents ((case :: cases).flatMap caseCells) ++ rest =
        Row.contents (caseCells case) ++ (Row.contents (cases.flatMap caseCells) ++ rest) := by
      simp [Row.contents]
    rw [words, List.length_cons, switchCases]
    simp only [bind_apply, switchCase_cells, Except.bind, ih, pure_apply, List.map_cons]

theorem transform_key (bad : RowFault) (key : UInt8) (digits : String) (rest : List String)
    (read : Text.readByte digits.toList = some key) :
    transform bad ("xor_const" :: digits :: rest) = .ok (some (.xor key), rest) := by
  have found := known_cons bad (fun key => Text.readByte key.toList) RowFault.badKey digits rest key
    read
  change ((word bad >>= _) ("xor_const" :: digits :: rest) : Except _ _) = _
  simp only [bind_apply, word_cons, Except.bind]
  rw [if_neg (by decide), if_pos trivial]
  simp only [bind_apply, found, Except.bind, pure_apply]

theorem transform_cells (bad : RowFault) {change : Option Transform} {cells : Row}
    (form : TransformForm change cells) (rest : List String) :
    transform bad (Row.contents cells ++ rest) = .ok (change, rest) := by
  cases form with
  | written =>
    cases change with
    | none => rfl
    | some change =>
      obtain ⟨key⟩ := change
      exact transform_key bad key _ rest (by rw [count, Cell.content, Text.readByte_showNat])
  | hexadecimal mark isMark number =>
    exact transform_key bad _ _ rest (by
      rw [Cell.content, String.toList_ofList, Text.readByte_hexadecimal isMark number])

/-- The last cells of a whole field row are there, so the row does not end before them. -/
theorem transformForm_cons {change : Option Transform} {cells : Row}
    (form : TransformForm change cells) :
    ∃ first rest, Row.contents cells = first :: rest := by
  cases form with
  | written => cases change <;> exact ⟨_, _, rfl⟩
  | hexadecimal => exact ⟨_, _, rfl⟩

/-- A field with the normal form of what stands in the cells from the condition up to the cases. -/
def withControl (start field : Field) : Field :=
  { start with
    condition := field.condition.map Expr.normal
    repetition := field.repetition
    repeatExpr := field.repeatExpr.map Expr.normal
    switchOn := field.switchOn.map Expr.normal
    cases := field.cases.map SwitchCase.normal }

theorem controlCells_contents (field : Field) (rest : List String) :
    Row.contents (controlCells field) ++ rest =
      (Listing.optionalExpr field.condition).content :: field.repetition.word ::
        (Listing.optionalExpr field.repeatExpr).content ::
        (Listing.optionalExpr field.switchOn).content :: (count field.cases.length).content ::
        (Row.contents (field.cases.flatMap caseCells) ++ rest) := by
  simp [Row.contents, controlCells, Cell.content]

section Control

variable (bad : RowFault) (start field : Field)

theorem repetition_cons (rest : List String) :
    known bad Repetition.ofWord? RowFault.unknownRepetition (field.repetition.word :: rest) =
      .ok (field.repetition, rest) :=
  known_cons _ _ _ _ _ _ (ofWord_repetition field.repetition)

theorem fieldRest_whole {cells : Row} (form : TransformForm field.transform cells)
    (fits : field.cases.length < UInt64.size) :
    fieldRest bad start (Row.contents (controlCells field) ++ Row.contents cells) =
      .ok ({ withControl start field with transform := field.transform }, []) := by
  obtain ⟨first, others, last⟩ := transformForm_cons form
  have changed := transform_cells bad form []
  rw [List.append_nil, last] at changed
  rw [controlCells_contents]
  unfold fieldRest
  simp only [bind_apply, optionalExpr_cons, Except.bind, repetition_cons,
    number_of_count bad _ _ fits, switchCases_cells, last, atEnd_cons, Bool.false_eq_true,
    ↓reduceIte, changed, finish_nil, pure_apply, withControl]

theorem fieldRest_toCases (fits : field.cases.length < UInt64.size) :
    fieldRest bad start (Row.contents (controlCells field)) =
      .ok (withControl start field, []) := by
  have ended : atEnd [] = .ok (true, []) := rfl
  rw [← List.append_nil (Row.contents _), controlCells_contents]
  unfold fieldRest
  simp only [bind_apply, optionalExpr_cons, Except.bind, repetition_cons,
    number_of_count bad _ _ fits, switchCases_cells, ended, ↓reduceIte, pure_apply, withControl]

theorem fieldRest_large (large : ¬ field.cases.length < UInt64.size) (rest : List String) :
    fieldRest bad start (Row.contents (controlCells field) ++ rest) = .error bad := by
  rw [controlCells_contents]
  unfold fieldRest
  simp only [bind_apply, optionalExpr_cons, Except.bind, repetition_cons,
    number_of_large bad _ _ large]

end Control

theorem sizeCells_contents (field : Field) (rest : List String) :
    Row.contents (sizeCells field) ++ rest =
      "attr" :: field.id :: (Row.contents (typeCells field.type) ++
        (Listing.optionalOrder field.order).content ::
        (Listing.optionalExpr field.size).content :: rest) := by
  simp [Row.contents, sizeCells, Cell.content]

/-- A field with the normal form of what stands in the cells up to the encoding. -/
def toEncoding (field : Field) : Field :=
  { id := field.id, type := field.type, order := field.order, size := field.size.map Expr.normal,
    enumName := normalText field.enumName, encoding := normalText field.encoding }

/-- Up to the condition a field row is read in any case; the rest of it decides. -/
theorem field_behind_encoding (field : Field) (first : String) (rest : List String) :
    WordReader.field (Row.contents (sizeCells field) ++
      (Row.contents (encodingCells field) ++ first :: rest)) =
      fieldRest (.badRow .fieldRow) (toEncoding field) (first :: rest) := by
  rw [sizeCells_contents]
  change (keyword (.badRow .fieldRow) "attr" >>= _ : WordReader Field)
    ("attr" :: field.id :: (Row.contents (typeCells field.type) ++
      (Listing.optionalOrder field.order).content :: (Listing.optionalExpr field.size).content ::
      (Listing.optionalText field.enumName).content ::
      (Listing.optionalText field.encoding).content :: first :: rest)) = _
  simp only [bind_apply, keyword_cons, word_cons, Except.bind, typeRef_cells, optionalOrder_cons,
    optionalExpr_cons, optionalText_cons, atEnd_cons, Bool.false_eq_true, ↓reduceIte, toEncoding]

theorem field_toEncoding (field : Field) :
    WordReader.field (Row.contents (sizeCells field) ++ Row.contents (encodingCells field)) =
      .ok (toEncoding field, []) := by
  have ended : atEnd [] = .ok (true, []) := rfl
  rw [sizeCells_contents]
  change (keyword (.badRow .fieldRow) "attr" >>= _ : WordReader Field)
    ("attr" :: field.id :: (Row.contents (typeCells field.type) ++
      (Listing.optionalOrder field.order).content :: (Listing.optionalExpr field.size).content ::
      (Listing.optionalText field.enumName).content ::
      [(Listing.optionalText field.encoding).content])) = _
  simp only [bind_apply, keyword_cons, word_cons, Except.bind, typeRef_cells, optionalOrder_cons,
    optionalExpr_cons, optionalText_cons, atEnd_cons, ended, Bool.false_eq_true, ↓reduceIte,
    pure_apply, toEncoding]

theorem field_toSize (field : Field) :
    WordReader.field (Row.contents (sizeCells field)) =
      .ok ({ id := field.id, type := field.type, order := field.order,
             size := field.size.map Expr.normal }, []) := by
  have ended : atEnd [] = .ok (true, []) := rfl
  rw [← List.append_nil (Row.contents _), sizeCells_contents]
  change (keyword (.badRow .fieldRow) "attr" >>= _ : WordReader Field) _ = _
  simp only [bind_apply, keyword_cons, word_cons, Except.bind, typeRef_cells, optionalOrder_cons,
    optionalExpr_cons, ended, ↓reduceIte, pure_apply]

theorem contents_append (front back : Row) :
    Row.contents (front ++ back) = Row.contents front ++ Row.contents back :=
  List.map_append

/-- Whatever the form of a field row, the normal form of the field is read. -/
theorem field_row {field : Field} {row : Row} (form : FieldForm field row)
    (fits : field.cases.length < UInt64.size) :
    WordReader.field (Row.contents row) = .ok (field.normal, []) := by
  obtain ⟨first, rest, control⟩ : ∃ first rest, Row.contents (controlCells field) = first :: rest :=
    ⟨_, _, rfl⟩
  cases form with
  | @whole cells transform =>
    have read := fieldRest_whole (.badRow .fieldRow) (toEncoding field) field transform fits
    rw [control] at read
    simp only [contents_append, List.append_assoc, control]
    exact (field_behind_encoding field first _).trans read
  | toCases unchanged =>
    have read := fieldRest_toCases (.badRow .fieldRow) (toEncoding field) field fits
    rw [control] at read
    simp only [contents_append, List.append_assoc, control]
    rw [field_behind_encoding, read, Field.normal, unchanged]
    rfl
  | toEncoding ends =>
    rw [contents_append, field_toEncoding, Field.normal, ends.condition, ends.repetition,
      ends.repeatExpr, ends.switchOn, ends.cases, ends.transform]
    rfl
  | toSize ends =>
    rw [field_toSize, Field.normal, ends.enumName, ends.encoding, ends.condition, ends.repetition,
      ends.repeatExpr, ends.switchOn, ends.cases, ends.transform]
    rfl

/-- Only a whole row, or one cut behind the cases, has cases to count. -/
theorem field_row_large {field : Field} {row : Row} (form : FieldForm field row)
    (large : ¬ field.cases.length < UInt64.size) :
    WordReader.field (Row.contents row) = .error (.badRow .fieldRow) := by
  obtain ⟨first, rest, control⟩ : ∃ first rest, Row.contents (controlCells field) = first :: rest :=
    ⟨_, _, rfl⟩
  have counted : ¬ field.EndsWithEncoding := by
    intro ends
    rw [ends.cases] at large
    exact large (by decide)
  cases form with
  | @whole cells transform =>
    have failed := fieldRest_large (.badRow .fieldRow) (toEncoding field) field large
      (Row.contents cells)
    rw [control] at failed
    simp only [contents_append, List.append_assoc, control]
    exact (field_behind_encoding field first _).trans failed
  | toCases unchanged =>
    have failed := fieldRest_large (.badRow .fieldRow) (toEncoding field) field large []
    rw [List.append_nil, control] at failed
    simp only [contents_append, List.append_assoc, control]
    rw [field_behind_encoding, failed]
  | toEncoding ends => exact absurd ends counted
  | toSize ends => exact absurd ends.toEndsWithEncoding counted

theorem importName_row (name : String) :
    importName (Row.contents (importRow name)) = .ok (name, []) := rfl

theorem typeDecl_row (decl : TypeDecl) :
    typeDecl (Row.contents (typeRow decl)) = .ok (decl, []) := by
  have named := typeRef_cells (.badRow .typeRow) decl.type []
  rw [List.append_nil] at named
  change (keyword (.badRow .typeRow) "type" >>= _ : WordReader TypeDecl)
    ("type" :: decl.name :: Row.contents (typeCells decl.type)) = _
  simp only [bind_apply, keyword_cons, word_cons, Except.bind, named, finish_nil, pure_apply]

theorem enumHead_row (decl : EnumDecl) (fits : decl.values.length < UInt64.size) :
    enumHead (Row.contents [.bare "enum", .quoted decl.name, count decl.values.length]) =
      .ok ((decl.name, decl.values.length), []) := by
  change (keyword (.badRow .enumRow) "enum" >>= _ : WordReader (String × Nat))
    ["enum", decl.name, (count decl.values.length).content] = _
  simp only [bind_apply, keyword_cons, word_cons, Except.bind, number_of_count _ _ _ fits,
    finish_nil, pure_apply]

theorem enumHead_row_large (decl : EnumDecl) (large : ¬ decl.values.length < UInt64.size) :
    enumHead (Row.contents [.bare "enum", .quoted decl.name, count decl.values.length]) =
      .error (.badRow .enumRow) := by
  change (keyword (.badRow .enumRow) "enum" >>= _ : WordReader (String × Nat))
    ["enum", decl.name, (count decl.values.length).content] = _
  simp only [bind_apply, keyword_cons, word_cons, Except.bind, number_of_large _ _ _ large]

theorem enumValue_row (value : EnumValue) :
    enumValue (Row.contents (enumValueRow value)) = .ok (value, []) := by
  have read := number_cons (.badRow .enumValueRow) Text.readInt64 (Text.showInt64 value.value)
    [value.name] value.value (Text.readInt64_showInt64 value.value)
  change (keyword (.badRow .enumValueRow) "enum_value" >>= _ : WordReader EnumValue)
    ["enum_value", Text.showInt64 value.value, value.name] = _
  simp only [bind_apply, keyword_cons, word_cons, Except.bind, read, finish_nil, pure_apply]

theorem parseRule_words (bad : RowFault) (rule : ParseRule) :
    parseRule bad (Row.contents (typeCells rule.type) ++
      [(Listing.optionalOrder rule.order).content, (Listing.optionalExpr rule.position).content,
        (Listing.optionalExpr rule.size).content, (Listing.optionalText rule.encoding).content]) =
      .ok (rule.normal, []) := by
  unfold parseRule
  simp only [bind_apply, Except.bind, typeRef_cells, optionalOrder_cons, optionalExpr_cons,
    optionalText_cons, pure_apply, ParseRule.normal]

theorem instanceDecl_row (inst : Instance) :
    instanceDecl (Row.contents (instanceRow inst)) = .ok (inst.normal, []) := by
  obtain ⟨id, body⟩ := inst
  cases body with
  | value expr =>
    have body : instanceBody (.badRow .instanceRow) ["value", (exprCell expr).content] =
        .ok (.value expr.normal, []) := by
      unfold instanceBody
      simp only [bind_apply, word_cons, Except.bind, ↓reduceIte, expr_cons, pure_apply]
    change (keyword (.badRow .instanceRow) "instance" >>= _ : WordReader Instance)
      ["instance", id, "value", (exprCell expr).content] = _
    simp only [bind_apply, keyword_cons, word_cons, Except.bind, body, finish_nil, pure_apply,
      Instance.normal, InstanceBody.normal]
  | parse rule =>
    have body : instanceBody (.badRow .instanceRow)
        ("parse" :: (Row.contents (typeCells rule.type) ++
        [(Listing.optionalOrder rule.order).content, (Listing.optionalExpr rule.position).content,
          (Listing.optionalExpr rule.size).content,
          (Listing.optionalText rule.encoding).content])) = .ok (.parse rule.normal, []) := by
      unfold instanceBody
      simp only [bind_apply, word_cons, Except.bind]
      rw [if_neg (by decide), if_pos trivial]
      simp only [bind_apply, parseRule_words, Except.bind, pure_apply]
    have words : Row.contents (instanceRow ⟨id, .parse rule⟩) =
        "instance" :: id :: "parse" :: (Row.contents (typeCells rule.type) ++
          [(Listing.optionalOrder rule.order).content,
            (Listing.optionalExpr rule.position).content,
            (Listing.optionalExpr rule.size).content,
            (Listing.optionalText rule.encoding).content]) := by
      simp [Row.contents, instanceRow, Cell.content]
    rw [words]
    change (keyword (.badRow .instanceRow) "instance" >>= _ : WordReader Instance) _ = _
    simp only [bind_apply, keyword_cons, word_cons, Except.bind, body, finish_nil, pure_apply,
      Instance.normal, InstanceBody.normal]

theorem instanceDecl_unmarked (id : String) (expr : Expr) :
    instanceDecl (Row.contents [.bare "instance", .quoted id, exprCell expr]) =
      .ok (⟨id, .value expr.normal⟩, []) := by
  have unmarked : (exprCell expr).content ≠ "value" := text_ne expr (by decide)
  have unparsed : (exprCell expr).content ≠ "parse" := text_ne expr (by decide)
  have body : instanceBody (.badRow .instanceRow) [(exprCell expr).content] =
      .ok (.value expr.normal, []) := by
    have value : exprOf (exprCell expr).content = .ok expr.normal := exprOf_text expr
    unfold instanceBody
    simp only [bind_apply, word_cons, Except.bind, unmarked, unparsed, ↓reduceIte, lift_apply,
      value, pure_apply]
  change (keyword (.badRow .instanceRow) "instance" >>= _ : WordReader Instance)
    ["instance", id, (exprCell expr).content] = _
  simp only [bind_apply, keyword_cons, word_cons, Except.bind, body, finish_nil, pure_apply]

theorem instanceDecl_form {inst : Instance} {row : Row} (form : InstanceForm inst row) :
    instanceDecl (Row.contents row) = .ok (inst.normal, []) := by
  cases form with
  | written => exact instanceDecl_row inst
  | unmarked id expr => exact instanceDecl_unmarked id expr

theorem validation_row (validation : Validation) :
    WordReader.validation (Row.contents (validationRow validation)) =
      .ok (validation.normal, []) := by
  change (keyword (.badRow .validationRow) "validation" >>= _ : WordReader Validation)
    ["validation", validation.target, (exprCell validation.condition).content,
      validation.message] = _
  simp only [bind_apply, keyword_cons, word_cons, Except.bind, expr_cons, finish_nil, pure_apply,
    Validation.normal]

theorem formatName_row (name : String) :
    formatName (Row.contents [.bare "name", .quoted name]) = .ok (name, []) := rfl

theorem formatOrder_row (order : ByteOrder) :
    formatOrder (Row.contents [.bare "default_endian", .bare order.word]) = .ok (order, []) := by
  cases order <;> rfl

theorem sectionSize_row (name : String) (size : Nat) (fits : size < UInt64.size) :
    sectionSize name (Row.contents (sectionRow name size)) = .ok (size, []) := by
  change (keyword (.badSection name) name >>= _ : WordReader Nat) [name, (count size).content] = _
  simp only [bind_apply, keyword_cons, Except.bind, number_of_count _ _ _ fits, finish_nil,
    pure_apply]

theorem sectionSize_row_large (name : String) (size : Nat) (large : ¬ size < UInt64.size) :
    sectionSize name (Row.contents (sectionRow name size)) = .error (.badSection name) := by
  change (keyword (.badSection name) name >>= _ : WordReader Nat) [name, (count size).content] = _
  simp only [bind_apply, keyword_cons, Except.bind, number_of_large _ _ _ large]

end WordReader

end FormatCompiler.Listing
