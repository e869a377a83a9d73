import FormatCompiler.Disk.Path
import FormatCompiler.Format.Alias

/-!
The structural rules of a format. A format is well formed when no rule is violated; of several
violations the first in reading order is reported.
-/

namespace FormatCompiler

set_option autoImplicit false

/-- A violated rule. -/
inductive Violation where
  | missingFormatName
  | missingTypeName
  | duplicateType (name : String)
  /-- A type declared to stand for the empty name. -/
  | emptyAlias
  /-- A field with the empty name for its type. -/
  | emptyFieldType
  | missingEnumName
  | duplicateEnum (name : String)
  | emptyEnum (name : String)
  | missingEnumValueName (enumName : String)
  | duplicateEnumValueName (enumName name : String)
  | duplicateEnumValue (enumName : String) (value : Int64)
  | missingFieldId
  | unknownFieldType (name : String)
  | encodingOnNonString
  | missingRepeatExpr (repetition : Repetition)
  | unexpectedRepeatExpr
  | casesWithoutSwitch
  | switchWithoutCases
  | duplicateFallback
  | structureCase
  | enumOnNonInteger
  | unknownEnum (name : String)
  | missingInstanceId
  | unknownInstanceType (name : String)
  | missingValidationTarget
  | aliasCycle (name : String)
  | unknownAliasTarget (name target : String)
  deriving DecidableEq, Repr

def Violation.message : Violation → String
  | .missingFormatName => "spec.name is required"
  | .missingTypeName => "type.name is required"
  | .duplicateType name => "duplicate type declaration: " ++ name
  | .emptyAlias => "user type reference requires user_type"
  | .emptyFieldType => "attr user type reference requires user_type"
  | .missingEnumName => "enum.name is required"
  | .duplicateEnum name => "duplicate enum declaration: " ++ name
  | .emptyEnum name => "enum.values must not be empty: " ++ name
  | .missingEnumValueName enumName => "enum value name is required in enum: " ++ enumName
  | .duplicateEnumValueName enumName name =>
    "duplicate enum value name in enum " ++ enumName ++ ": " ++ name
  | .duplicateEnumValue enumName value =>
    "duplicate enum value in enum " ++ enumName ++ ": " ++ Text.showInt64 value
  | .missingFieldId => "attr.id is required"
  | .unknownFieldType name => "attr references unknown user type: " ++ name
  | .encodingOnNonString => "attr.encoding is only allowed for primitive str type"
  | .missingRepeatExpr repetition => "attr.repeat_expr is required when repeat=" ++ repetition.word
  | .unexpectedRepeatExpr => "attr.repeat_expr is only allowed when repeat=expr/until"
  | .casesWithoutSwitch => "attr.switch_cases requires attr.switch_on"
  | .switchWithoutCases => "attr.switch_on requires at least one switch case"
  | .duplicateFallback => "attr.switch_cases has duplicate switch else case"
  | .structureCase => "switch case user-defined types are not supported in this migration slice"
  | .enumOnNonInteger => "attr.enum_name requires primitive integer type"
  | .unknownEnum name => "attr references unknown enum: " ++ name
  | .missingInstanceId => "instance.id is required"
  | .unknownInstanceType name => "instance references unknown user type: " ++ name
  | .missingValidationTarget => "validation.target is required"
  | .aliasCycle name => "type alias cycle detected at: " ++ name
  | .unknownAliasTarget name target =>
    "type \"" ++ name ++ "\" references unknown user type: " ++ target

/-- A violation, if a condition holds. -/
def Violation.when (broken : Bool) (violation : Violation) : Option Violation :=
  if broken then some violation else none

/-- The structure an import provides: the name of its file without directories and extension. -/
def importStem (name : String) : String :=
  Path.stem (Path.lastPiece name)

namespace Format

/-- The names a type reference may use: the format's own, those of its types and what its imports
provide. -/
def knows (format : Format) (name : String) : Bool :=
  name == format.name || format.types.any (·.name == name) ||
    format.imports.any (importStem · == name)

/-- The edges of the alias graph: each type that stands for another name, with that name. -/
def aliasEdges (format : Format) : List (String × String) :=
  format.types.filterMap fun decl =>
    match decl.type with
    | .primitive _ => none
    | .named target => if decl.type.payload?.isNone then some (decl.name, target) else none

end Format

namespace Rules

def typeViolation? (seen : List String) : List TypeDecl → Option Violation
  | [] => none
  | decl :: rest =>
    Violation.missingTypeName.when decl.name.isEmpty <|>
    (Violation.duplicateType decl.name).when (seen.contains decl.name) <|>
    Violation.emptyAlias.when (decl.type == .named "") <|>
    typeViolation? (decl.name :: seen) rest

def enumValueViolation? (enumName : String) (seen : List EnumValue) :
    List EnumValue → Option Violation
  | [] => none
  | value :: rest =>
    (Violation.missingEnumValueName enumName).when value.name.isEmpty <|>
    (Violation.duplicateEnumValueName enumName value.name).when
      (seen.any (·.name == value.name)) <|>
    (Violation.duplicateEnumValue enumName value.value).when (seen.any (·.value == value.value)) <|>
    enumValueViolation? enumName (value :: seen) rest

def enumViolation? (seen : List String) : List EnumDecl → Option Violation
  | [] => none
  | decl :: rest =>
    Violation.missingEnumName.when decl.name.isEmpty <|>
    (Violation.duplicateEnum decl.name).when (seen.contains decl.name) <|>
    (Violation.emptyEnum decl.name).when decl.values.isEmpty <|>
    enumValueViolation? decl.name [] decl.values <|>
    enumViolation? (decl.name :: seen) rest

def caseViolation? (aliases : AliasTable) (hasFallback : Bool) :
    List SwitchCase → Option Violation
  | [] => none
  | case :: rest =>
    Violation.duplicateFallback.when (case.value.isNone && hasFallback) <|>
    Violation.structureCase.when (aliases.primitive? case.type).isNone <|>
    caseViolation? aliases (hasFallback || case.value.isNone) rest

def fieldTypeViolation? (format : Format) : TypeRef → Option Violation
  | .primitive _ => none
  | .named name =>
    Violation.emptyFieldType.when name.isEmpty <|>
    (Violation.unknownFieldType name).when (!format.knows name)

def repeatViolation? (field : Field) : Option Violation :=
  (Violation.missingRepeatExpr field.repetition).when
    (field.repetition.takesExpr && field.repeatExpr.isNone) <|>
  Violation.unexpectedRepeatExpr.when (!field.repetition.takesExpr && field.repeatExpr.isSome)

def switchViolation? (aliases : AliasTable) (field : Field) : Option Violation :=
  Violation.casesWithoutSwitch.when (!field.cases.isEmpty && field.switchOn.isNone) <|>
  Violation.switchWithoutCases.when (field.switchOn.isSome && field.cases.isEmpty) <|>
  caseViolation? aliases false field.cases

def fieldEnumViolation? (format : Format) (type : Option Primitive) (field : Field) :
    Option Violation :=
  match field.enumName with
  | none => none
  | some name =>
    Violation.enumOnNonInteger.when (!type.any Primitive.isInteger) <|>
    (Violation.unknownEnum name).when (!format.enums.any (Name.refersTo ·.name name))

def fieldViolation? (format : Format) (aliases : AliasTable) (field : Field) : Option Violation :=
  let type := aliases.primitive? field.type
  Violation.missingFieldId.when field.id.isEmpty <|>
  fieldTypeViolation? format field.type <|>
  Violation.encodingOnNonString.when (field.encoding.isSome && type.any (· != .str)) <|>
  repeatViolation? field <|>
  switchViolation? aliases field <|>
  fieldEnumViolation? format type field

def instanceViolation? (format : Format) (inst : Instance) : Option Violation :=
  Violation.missingInstanceId.when inst.id.isEmpty <|>
  match inst.rule?.map ParseRule.type with
  | some (.named name) => (Violation.unknownInstanceType name).when (!format.knows name)
  | _ => none

/-- The edges that start elsewhere. -/
def edgesNotFrom (name : String) (edges : List (String × String)) : List (String × String) :=
  edges.filter fun edge => edge.1 != name

theorem edgesNotFrom_length {name : String} {edges : List (String × String)}
    {edge : String × String} (found : edges.find? (fun edge => edge.1 == name) = some edge) :
    (edgesNotFrom name edges).length < edges.length := by
  refine List.length_filter_lt_length_iff_exists.mpr ⟨edge, List.mem_of_find?_eq_some found, ?_⟩
  have same := List.find?_some found
  simpa using same

/-- Walks along the alias graph from `current`. `unused` holds the edges no walk has taken yet and
`chain` the names this walk has passed. What stays unused is returned. -/
def walkAliases (knows : String → Bool) (unused : List (String × String)) (chain : List String)
    (current : String) : Except Violation (List (String × String)) :=
  if chain.contains current then .error (.aliasCycle current)
  else
    match _found : unused.find? fun edge => edge.1 == current with
    | none => .ok unused
    | some (_, target) =>
      if !knows target then .error (.unknownAliasTarget current target)
      else walkAliases knows (edgesNotFrom current unused) (current :: chain) target
termination_by unused.length
decreasing_by exact edgesNotFrom_length _found

/-- Starts a walk at each of some edges. -/
def walkAll (knows : String → Bool) (unused : List (String × String)) :
    List (String × String) → Except Violation Unit
  | [] => .ok ()
  | (start, _) :: rest => do walkAll knows (← walkAliases knows unused [] start) rest

/-- The first edge that closes a cycle or leads nowhere, walking from each edge in turn. -/
def aliasViolation? (knows : String → Bool) (edges : List (String × String)) : Option Violation :=
  match walkAll knows edges edges with
  | .ok () => none
  | .error violation => some violation

end Rules

open Rules in
/-- The first violated rule of a format. -/
def Format.violation? (format : Format) : Option Violation :=
  let aliases := AliasTable.ofTypes format.types
  Violation.missingFormatName.when format.name.isEmpty <|>
  typeViolation? [format.name] format.types <|>
  enumViolation? [] format.enums <|>
  format.fields.findSome? (fieldViolation? format aliases) <|>
  format.instances.findSome? (instanceViolation? format) <|>
  Violation.missingValidationTarget.when (format.validations.any (·.target.isEmpty)) <|>
  aliasViolation? format.knows format.aliasEdges

end FormatCompiler
