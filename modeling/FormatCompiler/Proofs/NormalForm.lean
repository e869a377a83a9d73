import FormatCompiler.Listing.Writer
import FormatCompiler.Proofs.ExprText

/-!
The normal form of a format: what its listing says. An enum or an encoding that is called like the
mark of an absent field is absent, and a unary operator is the one its spelling stands for. A format
and its normal form have the same listing.
-/

namespace FormatCompiler

set_option autoImplicit false

open Listing

/-- A text that a row can tell from an absent one. -/
def normalText (text : Option String) : Option String :=
  text.filter (· != absent)

def SwitchCase.normal (case : SwitchCase) : SwitchCase :=
  { case with value := case.value.map Expr.normal }

def Field.normal (field : Field) : Field :=
  { field with
    size := field.size.map Expr.normal
    enumName := normalText field.enumName
    encoding := normalText field.encoding
    condition := field.condition.map Expr.normal
    repeatExpr := field.repeatExpr.map Expr.normal
    switchOn := field.switchOn.map Expr.normal
    cases := field.cases.map SwitchCase.normal }

def ParseRule.normal (rule : ParseRule) : ParseRule :=
  { rule with
    position := rule.position.map Expr.normal
    size := rule.size.map Expr.normal
    encoding := normalText rule.encoding }

def InstanceBody.normal : InstanceBody → InstanceBody
  | .value expr => .value expr.normal
  | .parse rule => .parse rule.normal

def Instance.normal (inst : Instance) : Instance :=
  { inst with body := inst.body.normal }

def Validation.normal (validation : Validation) : Validation :=
  { validation with condition := validation.condition.normal }

/-- Names, types, enums and imports are kept as they are. -/
def Format.normal (format : Format) : Format :=
  { format with
    fields := format.fields.map Field.normal
    instances := format.instances.map Instance.normal
    validations := format.validations.map Validation.normal }

namespace Listing

theorem exprCell_normal (expr : Expr) : exprCell expr.normal = exprCell expr := by
  rw [exprCell, Expr.text_normal, exprCell]

theorem optionalExpr_normal (expr : Option Expr) :
    optionalExpr (expr.map Expr.normal) = optionalExpr expr := by
  cases expr with
  | none => rfl
  | some expr => exact exprCell_normal expr

theorem optionalText_normal (text : Option String) :
    optionalText (normalText text) = optionalText text := by
  cases text with
  | none => rfl
  | some text =>
    rw [normalText, Option.filter_some]
    split
    · rfl
    · next same =>
      have mark : text = absent := by simpa using same
      rw [mark, optionalText, optionalText]

theorem caseCells_normal (case : SwitchCase) : caseCells case.normal = caseCells case := by
  obtain ⟨value, type⟩ := case
  cases value with
  | none => rfl
  | some value => simp only [caseCells, SwitchCase.normal, Option.map_some, exprCell_normal]

theorem fieldRow_normal (field : Field) : fieldRow field.normal = fieldRow field := by
  simp only [fieldRow, Field.normal, optionalExpr_normal, optionalText_normal, List.length_map,
    List.flatMap_map, caseCells_normal]

theorem instanceRow_normal (inst : Instance) : instanceRow inst.normal = instanceRow inst := by
  obtain ⟨id, body⟩ := inst
  cases body with
  | value expr => simp only [instanceRow, Instance.normal, InstanceBody.normal, exprCell_normal]
  | parse rule =>
    simp only [instanceRow, Instance.normal, InstanceBody.normal, ParseRule.normal,
      optionalExpr_normal, optionalText_normal]

theorem validationRow_normal (validation : Validation) :
    validationRow validation.normal = validationRow validation := by
  simp only [validationRow, Validation.normal, exprCell_normal]

/-- Taking the normal form does not change the listing. -/
theorem write_of_normal (format : Format) : write format.normal = write format := by
  have fields : fieldRow ∘ Field.normal = fieldRow := funext fieldRow_normal
  have instances : instanceRow ∘ Instance.normal = instanceRow := funext instanceRow_normal
  have validations : validationRow ∘ Validation.normal = validationRow :=
    funext validationRow_normal
  have same : rows format.normal = rows format := by
    simp only [rows, Format.normal, List.map_map, List.length_map, fields, instances, validations]
  rw [write, same, write]

end Listing

end FormatCompiler
