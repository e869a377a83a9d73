import FormatCompiler.Module.Basic

/-!
The formats that readers can be generated for. Every scope of a module is checked; the first thing
found that no target supports is reported.
-/

namespace FormatCompiler

set_option autoImplicit false

/-- Something that readers cannot be generated for. -/
inductive Unsupported where
  | complexStructureField
  | structureCase
  | structureField
  | encodingOutsideStr
  | transformOutsideBytes
  | unknownEnum
  | nonIntegerEnum
  | encodedStructureInstance
  | unknownTarget (name : String)
  | unknownName (name : String)
  | unaryOperator (symbol : String)
  | binaryOperator (symbol : String)
  deriving DecidableEq, Repr

/-- What the construct is called in messages. -/
def Unsupported.title : Unsupported → String
  | .complexStructureField => "complex user-type attrs in this migration slice"
  | .structureCase => "switch-on case type must resolve to primitive type"
  | .structureField => "attr type must resolve to primitive type"
  | .encodingOutsideStr => "encoding outside str attrs"
  | .transformOutsideBytes => "process outside bytes attrs"
  | .unknownEnum => "attr.enum_name references unknown enum"
  | .nonIntegerEnum => "enum attrs must be integer-backed"
  | .encodedStructureInstance => "encoding on user-type parse instances"
  | .unknownTarget name => "validation target outside attrs/instances: " ++ name
  | .unknownName name => "expression name reference outside attrs/instances: " ++ name
  | .unaryOperator symbol => "unary operator \"" ++ symbol ++ "\""
  | .binaryOperator symbol => "binary operator \"" ++ symbol ++ "\""

def Unsupported.message (cause : Unsupported) : String :=
  "not yet supported: " ++ cause.title

namespace Subset

/-- Something unsupported, if a condition holds. -/
def reject (broken : Bool) (cause : Unsupported) : Option Unsupported :=
  if broken then some cause else none

def binaryOperators : List String :=
  ["+", "-", "*", "/", "%", "==", "!=", ">", ">=", "<", "<=", "&&", "||", "and", "or", "&", "|",
    "^", "xor", "<<", ">>"]

def unaryOperators : List String :=
  ["-", "!", "not", "~"]

/-- The name of the item just read. -/
def currentItem : String := "_"

def rejectNode (known : List String) : Expr → Option Unsupported
  | .int _ | .bool _ => none
  | .name id => reject (id != currentItem && !known.contains id) (.unknownName id)
  | .unary (.sign symbol) _ => reject (!unaryOperators.contains symbol) (.unaryOperator symbol)
  | .unary _ _ => none
  | .binary symbol _ _ => reject (!binaryOperators.contains symbol) (.binaryOperator symbol)

def rejectExpr (known : List String) (expr : Expr) : Option Unsupported :=
  expr.nodes.findSome? (rejectNode known)

/-- What is wrong with the type of a field, its cases and what depends on them. -/
def rejectField (scope : Scope) (field : Field) : Option Unsupported :=
  if (scope.fieldStructure? field).isSome then
    reject (field.encoding.isSome || field.transform.isSome || field.enumName.isSome)
      .complexStructureField
  else
    reject (field.cases.any fun case => (scope.primitive? case.type).isNone) .structureCase <|>
    match scope.fieldPrimitive? field with
    | none => some .structureField
    | some type =>
      reject (field.encoding.isSome && type != .str) .encodingOutsideStr <|>
      reject (field.transform.isSome && (type != .bytes || field.switchOn.isSome))
        .transformOutsideBytes <|>
      match field.enumName with
      | none => none
      | some name =>
        reject (scope.enumOwner? name).isNone .unknownEnum <|>
        reject (!type.isInteger) .nonIntegerEnum

def rejectBody (scope : Scope) (known : List String) : InstanceBody → Option Unsupported
  | .value expr => rejectExpr known expr
  | .parse rule =>
    reject ((scope.structure? rule.type).isSome && rule.encoding.isSome)
      .encodedStructureInstance <|>
    (rule.position.toList ++ rule.size.toList).findSome? (rejectExpr known)

/-- An instance may use the fields and the instances before it. -/
def rejectInstances (scope : Scope) (known : List String) : List Instance → Option Unsupported
  | [] => none
  | inst :: rest =>
    rejectBody scope known inst.body <|> rejectInstances scope (inst.id :: known) rest

def rejectValidation (known : List String) (validation : Validation) : Option Unsupported :=
  reject (!known.contains validation.target) (.unknownTarget validation.target) <|>
  rejectExpr known validation.condition

/-- The expressions of a field. -/
def fieldExprs (field : Field) : List Expr :=
  field.condition.toList ++ field.size.toList ++ field.repeatExpr.toList ++
    field.switchOn.toList ++ field.cases.filterMap SwitchCase.value

/-- The names of the fields and the instances of a format. -/
def members (format : Format) : List String :=
  format.fields.map Field.id ++ format.instances.map Instance.id

def rejectScope (scope : Scope) : Option Unsupported :=
  let format := scope.format
  format.fields.findSome? (rejectField scope) <|>
  rejectInstances scope (format.fields.map Field.id) format.instances <|>
  format.validations.findSome? (rejectValidation (members format)) <|>
  format.fields.findSome? fun field => (fieldExprs field).findSome? (rejectExpr (members format))

end Subset

/-- The first thing in a module that no target supports. -/
def Module.unsupported? (module : Module) : Option Unsupported :=
  module.scopes.findSome? Subset.rejectScope

end FormatCompiler
