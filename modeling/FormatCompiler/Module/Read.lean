import FormatCompiler.Module.Basic

/-!
What is read from the stream for the values of a scope, whatever the target.
-/

namespace FormatCompiler

set_option autoImplicit false

inductive Read where
  /-- A structure, by its own reader. -/
  | record (type : Structure)
  | number (type : Primitive) (order : ByteOrder)
  /-- Bytes up to a size or to the end, changed once read. -/
  | bytes (size : Option Expr) (transform : Option Transform)
  /-- Text of a size; without one there is none. -/
  | text (size : Option Expr) (encoding : Option String)
  deriving DecidableEq, Repr

def Read.ofPrimitive (type : Primitive) (order : ByteOrder) (size : Option Expr)
    (encoding : Option String) (transform : Option Transform) : Read :=
  match type with
  | .bytes => .bytes size transform
  | .str => .text size encoding
  | _ => .number type order

namespace Scope

/-- What a field reads as a primitive type. -/
def primitiveRead (scope : Scope) (field : Field) (type : TypeRef) : Read :=
  .ofPrimitive (scope.primitive type) (scope.orderOf field.order) field.size field.encoding
    field.transform

/-- What a field reads as its own type or as that of a case. Only outside a switch is a structure
read. -/
def read (scope : Scope) (field : Field) (type : TypeRef) : Read :=
  match if field.switchOn.isNone then scope.structure? type else none with
  | some found => .record found
  | none => scope.primitiveRead field type

/-- What an instance reads. -/
def ruleRead (scope : Scope) (rule : ParseRule) : Read :=
  match scope.structure? rule.type with
  | some found => .record found
  | none =>
    .ofPrimitive (scope.primitive rule.type) (scope.orderOf rule.order) rule.size rule.encoding none

/-- The structures defined elsewhere that a scope reads, fields first. -/
def externals (scope : Scope) : List String :=
  let fields := scope.format.fields.filterMap scope.fieldStructure?
  let rules := (scope.format.instances.filterMap Instance.rule?).filterMap fun rule =>
    scope.structure? rule.type
  (fields ++ rules).filterMap fun type =>
    match type with
    | .nested _ => none
    | .external name => some name

end Scope

namespace Module

/-- The structures that imports provide, each with the stem of its import, in the order of the
imports and then of use. -/
def imported (module : Module) : List (String × String) :=
  let used := (module.scopes.flatMap Scope.externals).eraseDups
  let provided := module.root.imports.flatMap fun path =>
    let stem := importStem path
    (used.filter fun name => module.importFor? name == some stem).map fun name => (stem, name)
  provided.eraseDups

/-- The stems of the imports that provide something used. -/
def importedStems (module : Module) : List String :=
  (module.imported.map Prod.fst).eraseDups

end Module

end FormatCompiler
