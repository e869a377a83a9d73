import FormatCompiler.Proofs.NormalForm
import FormatCompiler.Proofs.RowForms
import FormatCompiler.Proofs.RowText

/-!
The strings that a format stores, and the rows they end up in. Every row can be written, and it is
a single line exactly when the strings it is made of hold no line feed.
-/

namespace FormatCompiler

set_option autoImplicit false

/-- A string without a line feed. -/
def OneLine (text : String) : Prop :=
  '\n' ∉ text.toList

instance (text : String) : Decidable (OneLine text) :=
  inferInstanceAs (Decidable ('\n' ∉ text.toList))

/-- The names and the operators of an expression. -/
def Expr.strings : Expr → List String
  | .int _ => []
  | .bool _ => []
  | .name id => [id]
  | .unary op operand => op.label :: operand.strings
  | .binary op lhs rhs => op :: (lhs.strings ++ rhs.strings)

def TypeRef.strings : TypeRef → List String
  | .primitive _ => []
  | .named name => [name]

def TypeDecl.strings (decl : TypeDecl) : List String :=
  decl.name :: decl.type.strings

/-- The names and the operators of an expression that may be absent. -/
def exprStrings (expr : Option Expr) : List String :=
  expr.toList.flatMap Expr.strings

def SwitchCase.strings (case : SwitchCase) : List String :=
  exprStrings case.value ++ case.type.strings

def Field.strings (field : Field) : List String :=
  field.id :: field.type.strings ++ exprStrings field.size ++ field.enumName.toList ++
    field.encoding.toList ++ exprStrings field.condition ++ exprStrings field.repeatExpr ++
    exprStrings field.switchOn ++ field.cases.flatMap SwitchCase.strings

def EnumDecl.strings (decl : EnumDecl) : List String :=
  decl.name :: decl.values.map EnumValue.name

def ParseRule.strings (rule : ParseRule) : List String :=
  rule.type.strings ++ exprStrings rule.position ++ exprStrings rule.size ++ rule.encoding.toList

def Instance.strings (inst : Instance) : List String :=
  inst.id ::
    match inst.body with
    | .value expr => expr.strings
    | .parse rule => rule.strings

def Validation.strings (validation : Validation) : List String :=
  validation.target :: validation.condition.strings ++ [validation.message]

/-- Every string of a format. -/
def Format.strings (format : Format) : List String :=
  format.name :: format.imports ++ format.types.flatMap TypeDecl.strings ++
    format.fields.flatMap Field.strings ++ format.enums.flatMap EnumDecl.strings ++
    format.instances.flatMap Instance.strings ++ format.validations.flatMap Validation.strings

/-- The sizes of all lists of a format; each of them is counted in its listing. -/
def Format.sizes (format : Format) : List Nat :=
  [format.imports.length, format.types.length, format.fields.length, format.enums.length,
    format.instances.length, format.validations.length] ++
    format.fields.map (·.cases.length) ++ format.enums.map (·.values.length)

theorem Expr.oneLine_text (expr : Expr) :
    OneLine (String.ofList expr.text) ↔ ∀ string ∈ expr.strings, OneLine string := by
  simp only [OneLine, String.toList_ofList]
  induction expr with
  | int value =>
    have digits : '\n' ∉ (Text.showInt64 value).toList := fun member =>
      absurd (Text.mem_showInt64 member) (by decide)
    simp [text_int, strings, digits]
  | bool value => cases value <;> simp [text_bool, strings]
  | name id => simp [text_name, strings, Text.quote, Text.feed_mem_escape]
  | unary op operand ih =>
    simp [text_unary, strings, Text.quote, Text.feed_mem_escape, UnaryOp.feed_mem_spelling, ← ih]
  | binary op lhs rhs left right =>
    simp only [strings, List.forall_mem_cons, List.forall_mem_append, ← left, ← right]
    simp [text_binary, Text.quote, Text.feed_mem_escape]

namespace Listing

instance (cell : Cell) : Decidable cell.IsPlain :=
  match cell with
  | .bare word =>
    inferInstanceAs (Decidable (word.toList ≠ [] ∧ word.toList.all Text.isBareChar))
  | .quoted _ => inferInstanceAs (Decidable True)

/-- The cells can be written, and they are a single line exactly when all strings are. -/
structure Row.Holds (row : Row) (strings : List String) : Prop where
  plain : ∀ cell ∈ row, cell.IsPlain
  isLine : row.IsLine ↔ ∀ string ∈ strings, OneLine string

theorem Row.Holds.append {front back : Row} {first second : List String}
    (left : front.Holds first) (right : back.Holds second) :
    Row.Holds (front ++ back) (first ++ second) := by
  refine ⟨List.forall_mem_append.mpr ⟨left.plain, right.plain⟩, ?_⟩
  have parts : Row.IsLine (front ++ back) ↔ front.IsLine ∧ back.IsLine := by
    simp only [Row.IsLine, List.forall_mem_append]
  rw [parts, left.isLine, right.isLine, List.forall_mem_append]

theorem Row.Holds.cons {cell : Cell} {row : Row} {first second : List String}
    (left : Row.Holds [cell] first) (right : row.Holds second) :
    Row.Holds (cell :: row) (first ++ second) :=
  Row.Holds.append left right

theorem Row.Holds.flatMap {α : Type} (items : List α) (cells : α → Row)
    (strings : α → List String) (each : ∀ item, (cells item).Holds (strings item)) :
    Row.Holds (items.flatMap cells) (items.flatMap strings) := by
  induction items with
  | nil => exact ⟨by simp, by simp [Row.IsLine]⟩
  | cons item items ih => exact (each item).append ih

theorem Row.Holds.wellFormed {cell : Cell} {row : Row} {strings : List String}
    (holds : Row.Holds (cell :: row) strings) : Row.WellFormed (cell :: row) :=
  ⟨by simp, holds.plain⟩

theorem bare_holds (word : String) (plain : (Cell.bare word).IsPlain) :
    Row.Holds [.bare word] [] := by
  have unbroken : '\n' ∉ (Cell.bare word).content.toList := Cell.not_feed_of_bare plain
  exact ⟨by simp [plain], by simp [Row.IsLine, unbroken]⟩

theorem quoted_holds (text : String) : Row.Holds [.quoted text] [text] :=
  ⟨by simp [Cell.IsPlain], by simp [Row.IsLine, Cell.content, OneLine]⟩

theorem isBareChar_of_isDigit {c : Char} (digit : c.isDigit) : Text.isBareChar c := by
  simp [Text.isBareChar, Char.isAlphanum, digit]

theorem count_holds (size : Nat) : Row.Holds [count size] [] := by
  apply bare_holds
  refine ⟨Text.showNat_ne_nil size, List.all_eq_true.mpr ?_⟩
  intro c member
  exact isBareChar_of_isDigit (Text.isDigit_of_mem_showNat member)

theorem showInt64_holds (value : Int64) : Row.Holds [.bare (Text.showInt64 value)] [] := by
  apply bare_holds
  refine ⟨Text.showInt64_ne_nil value, List.all_eq_true.mpr ?_⟩
  intro c member
  rcases Text.mem_showInt64 member with digit | rfl
  · exact isBareChar_of_isDigit digit
  · rfl

theorem mark_holds (mark : String) (line : OneLine mark) : Row.Holds [.quoted mark] [] := by
  refine ⟨by simp [Cell.IsPlain], ?_⟩
  have unbroken : '\n' ∉ mark.toList := line
  simp [Row.IsLine, Cell.content, unbroken]

theorem exprCell_holds (expr : Expr) : Row.Holds [exprCell expr] expr.strings := by
  refine ⟨by simp [exprCell, Cell.IsPlain], ?_⟩
  rw [← expr.oneLine_text]
  simp [Row.IsLine, exprCell, Cell.content, OneLine]

theorem optionalExpr_holds (expr : Option Expr) :
    Row.Holds [optionalExpr expr] (exprStrings expr) := by
  cases expr with
  | none => exact mark_holds absent (by decide)
  | some expr => simpa [exprStrings, optionalExpr] using exprCell_holds expr

theorem optionalText_holds (text : Option String) : Row.Holds [optionalText text] text.toList := by
  cases text with
  | none => exact mark_holds absent (by decide)
  | some text => exact quoted_holds text

theorem optionalOrder_holds (order : Option ByteOrder) : Row.Holds [optionalOrder order] [] := by
  cases order with
  | none => exact bare_holds absent (by decide)
  | some order => exact bare_holds order.word (by cases order <;> decide)

theorem typeCells_holds (type : TypeRef) : Row.Holds (typeCells type) type.strings := by
  cases type with
  | primitive type =>
    exact (bare_holds "primitive" (by decide)).cons
      (mark_holds type.word (by cases type <;> decide))
  | named name => exact (bare_holds "user" (by decide)).cons (quoted_holds name)

theorem caseCells_holds (case : SwitchCase) : Row.Holds (caseCells case) case.strings := by
  obtain ⟨value, type⟩ := case
  cases value with
  | none => exact (mark_holds otherwise (by decide)).cons (typeCells_holds type)
  | some value =>
    simpa [caseCells, SwitchCase.strings, exprStrings] using
      (exprCell_holds value).cons (typeCells_holds type)

theorem transformForm_holds {change : Option Transform} {cells : Row}
    (form : TransformForm change cells) : Row.Holds cells [] := by
  cases form with
  | written =>
    cases change with
    | none => exact bare_holds absent (by decide)
    | some change => exact (bare_holds "xor_const" (by decide)).cons (count_holds change.1.toNat)
  | @hexadecimal key digits mark isMark number =>
    refine (bare_holds "xor_const" (by decide)).cons (bare_holds _ ⟨by simp, ?_⟩)
    have marked : Text.isBareChar mark := by rcases isMark with rfl | rfl <;> decide
    rw [String.toList_ofList, List.all_eq_true]
    refine List.forall_mem_cons.mpr ⟨by decide, List.forall_mem_cons.mpr ⟨marked, ?_⟩⟩
    intro c member
    simp [Text.isBareChar, Text.isAlphanum_of_hexadecimal number c member]

theorem importRow_holds (name : String) : Row.Holds (importRow name) [name] :=
  (bare_holds "import" (by decide)).cons (quoted_holds name)

theorem typeRow_holds (decl : TypeDecl) : Row.Holds (typeRow decl) decl.strings :=
  (bare_holds "type" (by decide)).cons ((quoted_holds decl.name).cons (typeCells_holds decl.type))

theorem sizeCells_holds (field : Field) :
    Row.Holds (sizeCells field) (field.id :: field.type.strings ++ exprStrings field.size) := by
  have head := (bare_holds "attr" (by decide)).cons (quoted_holds field.id)
  have tail := (optionalOrder_holds field.order).cons (optionalExpr_holds field.size)
  simpa [sizeCells] using (head.append (typeCells_holds field.type)).append tail

theorem encodingCells_holds (field : Field) :
    Row.Holds (encodingCells field) (field.enumName.toList ++ field.encoding.toList) :=
  (optionalText_holds field.enumName).cons (optionalText_holds field.encoding)

theorem controlCells_holds (field : Field) :
    Row.Holds (controlCells field) (exprStrings field.condition ++ exprStrings field.repeatExpr ++
      exprStrings field.switchOn ++ field.cases.flatMap SwitchCase.strings) := by
  have head := (optionalExpr_holds field.condition).cons
    ((bare_holds field.repetition.word (by cases field.repetition <;> decide)).cons
    ((optionalExpr_holds field.repeatExpr).cons ((optionalExpr_holds field.switchOn).cons
    (count_holds field.cases.length))))
  have cases := Row.Holds.flatMap field.cases caseCells SwitchCase.strings caseCells_holds
  simpa [controlCells] using head.append cases

/-- What a short row leaves out has no strings. -/
theorem fieldForm_holds {field : Field} {row : Row} (form : FieldForm field row) :
    Row.Holds row field.strings := by
  have toSize := sizeCells_holds field
  have toEncoding := toSize.append (encodingCells_holds field)
  have toCases := toEncoding.append (controlCells_holds field)
  cases form with
  | whole transform =>
    simpa [Field.strings] using toCases.append (transformForm_holds transform)
  | toCases unchanged => simpa [Field.strings] using toCases
  | toEncoding ends =>
    simpa [Field.strings, ends.condition, ends.repeatExpr, ends.switchOn, ends.cases, exprStrings]
      using toEncoding
  | toSize ends =>
    simpa [Field.strings, ends.enumName, ends.encoding, ends.condition, ends.repeatExpr,
      ends.switchOn, ends.cases, exprStrings] using toSize

theorem enumHead_holds (decl : EnumDecl) :
    Row.Holds [.bare "enum", .quoted decl.name, count decl.values.length] [decl.name] :=
  (bare_holds "enum" (by decide)).cons
    ((quoted_holds decl.name).cons (count_holds decl.values.length))

theorem enumValueRow_holds (value : EnumValue) : Row.Holds (enumValueRow value) [value.name] :=
  (bare_holds "enum_value" (by decide)).cons
    ((showInt64_holds value.value).cons (quoted_holds value.name))

theorem instanceRow_holds (inst : Instance) : Row.Holds (instanceRow inst) inst.strings := by
  obtain ⟨id, body⟩ := inst
  have head := (bare_holds "instance" (by decide)).cons (quoted_holds id)
  cases body with
  | value expr =>
    exact head.append ((bare_holds "value" (by decide)).cons (exprCell_holds expr))
  | parse rule =>
    have tail := (optionalOrder_holds rule.order).cons ((optionalExpr_holds rule.position).cons
      ((optionalExpr_holds rule.size).cons (optionalText_holds rule.encoding)))
    have whole := head.append (((bare_holds "parse" (by decide)).append
      (typeCells_holds rule.type)).append tail)
    simpa [instanceRow, Instance.strings, ParseRule.strings] using whole

theorem instanceForm_holds {inst : Instance} {row : Row} (form : InstanceForm inst row) :
    Row.Holds row inst.strings := by
  cases form with
  | written => exact instanceRow_holds inst
  | unmarked id expr =>
    exact ((bare_holds "instance" (by decide)).cons (quoted_holds id)).append (exprCell_holds expr)

theorem validationRow_holds (validation : Validation) :
    Row.Holds (validationRow validation) validation.strings :=
  (bare_holds "validation" (by decide)).cons ((quoted_holds validation.target).cons
    ((exprCell_holds validation.condition).cons (quoted_holds validation.message)))

theorem sectionRow_holds (name : String) (size : Nat) (plain : (Cell.bare name).IsPlain) :
    Row.Holds (sectionRow name size) [] :=
  (bare_holds name plain).cons (count_holds size)

end Listing

end FormatCompiler
