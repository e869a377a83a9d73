import Mathlib.Data.List.Forall2
import FormatCompiler.Listing.Writer
import FormatCompiler.Proofs.Numeral

/-!
The forms of a listing. Every optional part is written out, but a listing may leave out what has its
default: a field row may stop early, the row of a computed instance need not say that it is one, and
the section of imports may be missing. A key may be given in hexadecimal.
-/

namespace FormatCompiler

set_option autoImplicit false

/-- From its condition on, a field is as a field usually is. -/
structure Field.EndsWithEncoding (field : Field) : Prop where
  condition : field.condition = none
  repetition : field.repetition = .once
  repeatExpr : field.repeatExpr = none
  switchOn : field.switchOn = none
  cases : field.cases = []
  transform : field.transform = none

/-- From its enum on, a field is as a field usually is. -/
structure Field.EndsWithSize (field : Field) : Prop extends field.EndsWithEncoding where
  enumName : field.enumName = none
  encoding : field.encoding = none

namespace Listing

/-- The cells of a field row up to the size. -/
def sizeCells (field : Field) : Row :=
  [.bare "attr", .quoted field.id] ++ typeCells field.type ++
    [optionalOrder field.order, optionalExpr field.size]

/-- The cells of a field row from the enum up to the encoding. -/
def encodingCells (field : Field) : Row :=
  [optionalText field.enumName, optionalText field.encoding]

/-- The cells of a field row from the condition up to the switch cases. -/
def controlCells (field : Field) : Row :=
  [optionalExpr field.condition, .bare field.repetition.word, optionalExpr field.repeatExpr,
    optionalExpr field.switchOn, count field.cases.length] ++ field.cases.flatMap caseCells

theorem fieldRow_eq (field : Field) :
    fieldRow field = sizeCells field ++ encodingCells field ++ controlCells field ++
      transformCells field.transform := by
  simp [fieldRow, sizeCells, encodingCells, controlCells]

/-- The last cells of a whole field row. -/
inductive TransformForm : Option Transform → Row → Prop
  | written (change : Option Transform) : TransformForm change (transformCells change)
  | hexadecimal {key : UInt8} {digits : List Char} (mark : Char) (isMark : mark = 'x' ∨ mark = 'X')
      (number : Text.IsHexadecimal digits key.toNat) :
      TransformForm (some (.xor key))
        [.bare "xor_const", .bare (String.ofList ('0' :: mark :: digits))]

/-- A row for a field; it may be cut where everything behind is as usual. -/
inductive FieldForm (field : Field) : Row → Prop
  | whole {cells : Row} (transform : TransformForm field.transform cells) :
      FieldForm field (sizeCells field ++ encodingCells field ++ controlCells field ++ cells)
  | toCases (unchanged : field.transform = none) :
      FieldForm field (sizeCells field ++ encodingCells field ++ controlCells field)
  | toEncoding (ends : field.EndsWithEncoding) :
      FieldForm field (sizeCells field ++ encodingCells field)
  | toSize (ends : field.EndsWithSize) : FieldForm field (sizeCells field)

/-- A row for an instance. -/
inductive InstanceForm : Instance → Row → Prop
  | written (inst : Instance) : InstanceForm inst (instanceRow inst)
  | unmarked (id : String) (expr : Expr) :
      InstanceForm ⟨id, .value expr⟩ [.bare "instance", .quoted id, exprCell expr]

/-- The rows for the imports. -/
inductive ImportForm : List String → List Row → Prop
  | written (names : List String) :
      ImportForm names (sectionRow "imports" names.length :: names.map importRow)
  | missing : ImportForm [] []

/-- The rows for a format. -/
inductive Form (format : Format) : List Row → Prop
  | rows {imports fields instances : List Row} (importForm : ImportForm format.imports imports)
      (fieldForms : List.Forall₂ FieldForm format.fields fields)
      (instanceForms : List.Forall₂ InstanceForm format.instances instances) :
      Form format ([[.bare header], [.bare "name", .quoted format.name],
          [.bare "default_endian", .bare format.order.word]] ++ imports ++
        sectionRow "types" format.types.length :: format.types.map typeRow ++
        sectionRow "attrs" format.fields.length :: fields ++
        sectionRow "enums" format.enums.length :: format.enums.flatMap enumRows ++
        sectionRow "instances" format.instances.length :: instances ++
        sectionRow "validations" format.validations.length ::
          format.validations.map validationRow ++
        [[.bare endMark]])

/-- Items with their rows, each with its form. -/
theorem exists_forms {α β : Type} {form : α → β → Prop} {items : List α} {rows : List β}
    (forms : List.Forall₂ form items rows) :
    ∃ pairs : List { pair : α × β // form pair.1 pair.2 },
      pairs.map (fun pair => pair.1.1) = items ∧ pairs.map (fun pair => pair.1.2) = rows := by
  induction forms with
  | nil => exact ⟨[], rfl, rfl⟩
  | @cons item row items rows first _ ih =>
    obtain ⟨pairs, rfl, rfl⟩ := ih
    exact ⟨⟨(item, row), first⟩ :: pairs, rfl, rfl⟩

theorem FieldForm.ne_nil {field : Field} {row : Row} (form : FieldForm field row) : row ≠ [] := by
  cases form <;> simp [sizeCells]

theorem InstanceForm.ne_nil {inst : Instance} {row : Row} (form : InstanceForm inst row) :
    row ≠ [] := by
  cases form <;> simp [instanceRow]

theorem fieldForm_fieldRow (field : Field) : FieldForm field (fieldRow field) := by
  rw [fieldRow_eq]
  exact .whole (.written field.transform)

/-- The rows that are written are a form of the format. -/
theorem form_rows (format : Format) : Form format (rows format) := by
  have fields : List.Forall₂ FieldForm format.fields (format.fields.map fieldRow) := by
    rw [List.forall₂_map_right_iff, List.forall₂_same]
    exact fun field _ => fieldForm_fieldRow field
  have instances :
      List.Forall₂ InstanceForm format.instances (format.instances.map instanceRow) := by
    rw [List.forall₂_map_right_iff, List.forall₂_same]
    exact fun inst _ => .written inst
  have form := Form.rows (.written format.imports) fields instances
  simpa [rows] using form

end Listing

end FormatCompiler
