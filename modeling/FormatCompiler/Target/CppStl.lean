import FormatCompiler.Target.Template

/-!
Readers for the `cpp_stl` target: a header that declares a class for each scope, and a source file
that defines them.
-/

namespace FormatCompiler.Target.CppStl

set_option autoImplicit false

/-! ### Names and types -/

def primitiveType : Primitive → String
  | .u1 => "uint8_t"
  | .u2 => "uint16_t"
  | .u4 => "uint32_t"
  | .u8 => "uint64_t"
  | .s1 => "int8_t"
  | .s2 => "int16_t"
  | .s4 => "int32_t"
  | .s8 => "int64_t"
  | .f4 => "float"
  | .f8 => "double"
  | .str => "std::string"
  | .bytes => "std::string"

/-- Names joined into a qualified class, each with the mark of a type. -/
def qualified (segments : List String) : String :=
  "::".intercalate (segments.map (· ++ "_t"))

/-- The class of a structure defined elsewhere. -/
def externalClass (name : String) : String :=
  if name = "" ∨ name = "struct" ∨ name = "kaitai::kstruct" then "kaitai::kstruct"
  else qualified (Name.segments name)

/-- The class of the scope at a path, qualified from the root's class on. -/
def classAt (module : Module) (path : String) : String :=
  qualified (module.root.name :: Name.segments path)

/-- A name with only letters and digits, and underscores for the rest. -/
def identifier (name : String) : String :=
  let cleaned := name.toList.map fun c => if c.isAlphanum then c else '_'
  match cleaned.head? with
  | none => "_"
  | some c => if c.isDigit then "_" ++ String.ofList cleaned else String.ofList cleaned

def shouty (name : String) : String :=
  String.ofList (Text.shoutySnake name.toList)

/-- The type of an enum that the root declares. -/
def rootEnumType (name : String) : String :=
  identifier (Name.short name) ++ "_e"

/-- The type of an enum that a nested scope declares, inside its class. -/
def nestedEnumType (decl : EnumDecl) : String :=
  Name.short decl.name ++ "_t"

/-- The constant for a value of an enum that a nested scope declares. -/
def nestedEnumValue (decl : EnumDecl) (entry : EnumValue) : String :=
  shouty (Name.short decl.name) ++ "_" ++ shouty entry.name

/-- The type of an instance whose value has no better one. -/
def defaultType : String := "int32_t"

/-- The type of a computed value, given those of some names. -/
def typeOfExpr (known : List (String × String)) : Expr → String
  | .bool _ => "bool"
  | .int value => if -128 ≤ value.toInt ∧ value.toInt ≤ 127 then "int8_t" else defaultType
  | .name id => (known.lookup id).getD defaultType
  | .unary (.sign op) _ => if Operator.symbol op = "!" then "bool" else defaultType
  | .binary op _ _ => if Operator.isBoolean (Operator.symbol op) then "bool" else defaultType
  | _ => defaultType

/-- The types of computed instances, each from those before it; the latest comes first. -/
def valueTypes (instances : List Instance) : List (String × String) :=
  instances.foldl (fun known inst =>
    match inst.body with
    | .value expr => (inst.id, typeOfExpr known expr) :: known
    | .parse _ => known) []

def className (scope : Scope) : String :=
  scope.name ++ "_t"

/-- The class of a scope, qualified from the root's class on. -/
def fullClass (scope : Scope) : String :=
  classAt scope.module scope.path

def rootClass (scope : Scope) : String :=
  scope.module.root.name ++ "_t"

/-- The type of a pointer to the structure around a scope's. -/
def parentPointer (scope : Scope) : String :=
  if scope.isRoot then "kaitai::kstruct*"
  else classAt scope.module (Name.enclosing scope.path) ++ "*"

/-- The class of a structure. A scope names itself and the scopes in it without qualification. -/
def structureClass (scope : Scope) (type : Structure) (full : Bool) : String :=
  match type with
  | .nested path =>
    if (Name.enclosing path == scope.path || path == scope.path) && !full then
      Name.short path ++ "_t"
    else classAt scope.module path
  | .external name => externalClass name

/-- The type of the enum a reference means. A scope names its own without qualification. -/
def enumType (scope : Scope) (reference : String) (full : Bool) : String :=
  match scope.enumOwner? reference with
  | none => rootEnumType reference
  | some (owner, decl) =>
    if owner.isEmpty then rootEnumType decl.name
    else if owner == scope.path && !full then nestedEnumType decl
    else classAt scope.module owner ++ "::" ++ nestedEnumType decl

/-- The type of one value of a field, as its users see it. -/
def baseType (scope : Scope) (field : Field) (full : Bool) : String :=
  match field.enumName with
  | some reference => enumType scope reference full
  | none =>
    match scope.fieldStructure? field with
    | some type => structureClass scope type full ++ "*"
    | none => primitiveType ((scope.fieldPrimitive? field).getD .u1)

/-- The type of one value of a field, as its class keeps it. -/
def elementType (scope : Scope) (field : Field) : String :=
  match scope.fieldStructure? field with
  | some type => "std::unique_ptr<" ++ structureClass scope type false ++ ">"
  | none => baseType scope field false

def storageType (scope : Scope) (field : Field) : String :=
  let element := elementType scope field
  if field.repetition = .once then element else s!"std::unique_ptr<std::vector<{element}>>"

def accessorType (scope : Scope) (field : Field) : String :=
  if field.repetition = .once then baseType scope field false
  else "std::vector<" ++ elementType scope field ++ ">*"

def instanceType (scope : Scope) (inst : Instance) (full : Bool) : String :=
  match inst.body with
  | .value _ => ((valueTypes scope.format.instances).lookup inst.id).getD defaultType
  | .parse rule =>
    match scope.structure? rule.type with
    | some type => structureClass scope type full ++ "*"
    | none => primitiveType (scope.primitive rule.type)

/-- Whether a field is kept behind a smart pointer. -/
def ownsPointer (scope : Scope) (field : Field) : Bool :=
  field.repetition != .once || (scope.fieldStructure? field).isSome

/-- Whether an instance holds a structure that it has to release. -/
def ownsInstance (scope : Scope) (inst : Instance) : Bool :=
  (inst.rule?.bind fun rule => scope.structure? rule.type).isSome

/-- Whether a field may stay without a value because no case of its switch matched. -/
def isNullable (field : Field) : Bool :=
  field.switchOn.isSome && field.fallback.isNone && field.repetition == .once

/-- Whether a field keeps its bytes as they were before they were changed. -/
def keepsRaw (field : Field) : Bool :=
  field.transform.isSome && field.repetition == .once

/-! ### Expressions and reads -/

def spelling (scope : Scope) : Spelling where
  truth value := if value then "true" else "false"
  name id := if scope.isMember id || id == "_root" || id == "_parent" then id ++ "()" else id
  cast type :=
    let title := match scope.module.scopeNamed? type with
      | some path => structureClass scope (.nested path) false
      | none => externalClass type
    (s!"static_cast<{title}*>(", ")")
  field name := ("", s!"->{name}()")

def record (scope : Scope) (type : Structure) : String :=
  let title := structureClass scope type false
  match type with
  | .nested _ => s!"new {title}(m__io, this, m__root)"
  | .external _ => s!"new {title}(m__io)"

def dialect (scope : Scope) : Dialect where
  spelling := spelling scope
  record := record scope
  number method := s!"m__io->{method}()"
  bytes size := s!"m__io->read_bytes({size})"
  allBytes := "m__io->read_bytes_full()"
  text size encoding := s!"kaitai::kstream::bytes_to_str(m__io->read_bytes({size}), \"{encoding}\")"
  noText := "std::string()"
  xor bytes key := s!"kaitai::kstream::process_xor_one({bytes}, {key})"
  tagged reference read :=
    let type := enumType scope reference false
    s!"static_cast<{type}>({read})"

/-- A line with the read of a case, as it is: no case is a structure or a value of an enum. -/
def caseRead (scope : Scope) (field : Field) (before : String) (case : SwitchCase)
    (after : String) : Slot :=
  .keep before ⟨none, scope.primitiveRead field case.type⟩ after

/-- A switch as a value, with text before and after it: the cases are tried in turn, and of several
fallbacks the last counts. -/
def switchValue (scope : Scope) (field : Field) (selector : Expr) (before after : String) :
    Template :=
  let type := baseType scope field false
  let arms := field.cases.filterMap fun case => case.value.map fun value =>
    caseRead scope field
      ("if (" ++ (dialect scope).expr (.binary "==" selector value) ++ ") return ") case ";"
  let last := match field.cases.reverse.find? fun case => case.value.isNone with
    | some case => caseRead scope field "return " case ";"
    | none => .line s!"throw std::runtime_error(\"{noMatch}\");"
  Slot.line (before ++ s!"([&]() -> {type} \x7b") :: Template.block (arms ++ [last]) ++
    [Slot.line ("\x7d)()" ++ after)]

/-- One value of a field, with text before and after it. -/
def fieldValue (scope : Scope) (field : Field) (before after : String) : Template :=
  match field.switchOn with
  | some selector => switchValue scope field selector before after
  | none =>
    match scope.read field field.type with
    | .record type =>
      [.keep (before ++ "std::unique_ptr<" ++ structureClass scope type false ++ ">(")
        ⟨field.enumName, .record type⟩ (")" ++ after)]
    | read => [.keep before ⟨field.enumName, read⟩ after]

/-! ### The header -/

def rootEnum (decl : EnumDecl) : Code :=
  let type := rootEnumType decl.name
  let values := decl.values.map fun entry =>
    identifier entry.name ++ " = " ++ Text.showInt64 entry.value
  Step.line s!"enum class {type} \x7b" :: Code.block (Code.separated "," values) ++
    [Step.line "\x7d;", Step.blank]

def nestedEnum (decl : EnumDecl) : Code :=
  let type := nestedEnumType decl
  let values := decl.values.map fun entry =>
    nestedEnumValue decl entry ++ " = " ++ Text.showInt64 entry.value
  Code.block (Step.line s!"enum {type} \x7b" :: Code.block (Code.separated "," values) ++
      [Step.line "\x7d;", Step.line s!"static bool _is_defined_{type}({type} v);"]) ++
    Step.blank :: Code.branch "private:" s!"static const std::set<{type}> _values_{type};" ++
    [Step.blank, Step.line "public:", Step.blank]

/-- The methods that give access to what a class holds. -/
def accessors (scope : Scope) : List String :=
  let format := scope.format
  let root := rootClass scope
  let parent := parentPointer scope
  (format.instances.map fun inst => instanceType scope inst false ++ " " ++ inst.id ++ "();") ++
  (format.fields.map fun field =>
    let id := field.id
    let get := if ownsPointer scope field then ".get()" else ""
    accessorType scope field ++ s!" {id}() const \x7b return m_{id}{get}; \x7d") ++
  [s!"{root}* _root() const \x7b return m__root; \x7d",
    s!"{parent} _parent() const \x7b return m__parent; \x7d"] ++
  ((format.fields.filter keepsRaw).map fun field =>
    let id := field.id
    s!"std::string _raw_{id}() const \x7b return m__raw_{id}; \x7d") ++
  ((format.fields.filter isNullable).map fun field =>
    let id := field.id
    s!"bool _is_null_{id}() \x7b {id}(); return n_{id}; \x7d;")

/-- What a class holds. -/
def members (scope : Scope) : List String :=
  let format := scope.format
  let root := rootClass scope
  let parent := parentPointer scope
  (format.instances.flatMap fun inst =>
    ["bool f_" ++ inst.id ++ ";", instanceType scope inst false ++ " m_" ++ inst.id ++ ";"]) ++
  (format.fields.flatMap fun field =>
    (storageType scope field ++ " m_" ++ field.id ++ ";") ::
      if isNullable field then ["bool n_" ++ field.id ++ ";"] else []) ++
  [s!"{root}* m__root;", s!"{parent} m__parent;"] ++
  ((format.fields.filter keepsRaw).map fun field => "std::string m__raw_" ++ field.id ++ ";")

/-- The scopes directly inside one. -/
def inner (scope : Scope) : List Scope :=
  (scope.module.children scope.path).filterMap scope.module.scope?

/-- The class of a scope around the classes of the scopes inside it. -/
def classDecl (scope : Scope) (nested : List Code) : Code :=
  let title := className scope
  let parent := parentPointer scope
  let root := rootClass scope
  let forward := (inner scope).map fun child => "class " ++ className child ++ ";"
  let enums := if scope.isRoot then [] else scope.format.enums
  let reopened : Code := if nested.isEmpty then [] else [Step.blank, Step.line "public:"]
  [Step.line s!"class {title} : public kaitai::kstruct \x7b", Step.blank, Step.line "public:"] ++
    Code.block (Code.lines forward ++ Code.blankIf (!forward.isEmpty)) ++
    enums.flatMap nestedEnum ++
    Code.blankIf (forward.isEmpty && enums.isEmpty) ++
    Code.block [Step.line (s!"{title}(kaitai::kstream* p__io, {parent} p__parent = nullptr, " ++
      s!"{root}* p__root = nullptr);")] ++
    [Step.blank, Step.line "private:"] ++
    Code.block [Step.line "void _read();", Step.line "void _clean_up();"] ++
    [Step.blank, Step.line "public:"] ++
    Code.block (Step.line s!"~{title}();" :: nested.flatMap (Step.blank :: Code.apart ·)) ++
    reopened ++
    Code.block (Code.lines (accessors scope)) ++
    [Step.blank, Step.line "private:"] ++
    Code.block (Code.lines (members scope)) ++
    [Step.line "\x7d;"]

def header (module : Module) : Code :=
  let root := rootClass module.rootScope
  let repeats := module.scopes.any fun scope =>
    scope.format.fields.any fun field => field.repetition != .once
  let enums := module.scopes.any fun scope => !scope.format.enums.isEmpty
  let includes :=
    (if repeats then ["#include <vector>"] else []) ++
    (if enums then ["#include <set>"] else []) ++
    module.importedStems.map fun stem => s!"#include \"{stem}.h\""
  [Step.line "#pragma once", Step.blank, Step.line ("// " ++ remark), Step.blank,
      Step.line s!"class {root};", Step.blank, Step.line "#include \"kaitai/kaitaistruct.h\"",
      Step.line "#include <kaitai/exceptions.h>",
      Step.line "#include <stdint.h>", Step.line "#include <memory>"] ++
    Code.lines includes ++
    [Step.blank, Step.line "#if KAITAI_STRUCT_VERSION < 11000L",
      Step.line ("#error \"Incompatible Kaitai Struct C++/STL API: " ++
        "version 0.11 or later is required\""),
      Step.line "#endif", Step.blank] ++
    module.root.enums.flatMap rootEnum ++
    module.foldScopes classDecl

/-! ### The source file -/

/-- The set of the values of an enum that a nested scope declares. -/
def nestedEnumValues (scope : Scope) (decl : EnumDecl) : Code :=
  let full := fullClass scope
  let name := nestedEnumType decl
  let values := decl.values.map fun entry => full ++ "::" ++ nestedEnumValue decl entry ++ ","
  Step.line s!"const std::set<{full}::{name}> {full}::_values_{name}\x7b" ::
    Code.block (Code.lines values) ++
    Step.line "\x7d;" ::
    Code.branch s!"bool {full}::_is_defined_{name}({full}::{name} v) \x7b"
      s!"return {full}::_values_{name}.find(v) != {full}::_values_{name}.end();" ++
    [Step.line "\x7d", Step.blank]

/-- The mark that a field has its value. -/
def valueMark (field : Field) (null : String) : Code :=
  let id := field.id
  if isNullable field then [Step.line s!"n_{id} = {null};"] else []

/-- One case of a switch over literals. -/
def switchArm (scope : Scope) (field : Field) (case : SwitchCase) : Template :=
  let head := match case.value with
    | some value => "case " ++ (dialect scope).expr value ++ ": \x7b"
    | none => "default: \x7b"
  let id := field.id
  Slot.line head ::
    Template.block (Template.plain (valueMark field "false") ++
      [caseRead scope field s!"m_{id} = " case ";", Slot.line "break;"]) ++
    [Slot.line "\x7d"]

/-- The read of a field that is not repeated. A switch over literals is a statement. -/
def singleRead (scope : Scope) (field : Field) : Template :=
  let words := dialect scope
  let id := field.id
  let plain : Template :=
    match field.transform with
    | some (.xor key) =>
      [.keep s!"m__raw_{id} = " ⟨none, .bytes field.size none⟩ ";",
        .line (s!"m_{id} = " ++ words.xor s!"m__raw_{id}" (Text.showNat key.toNat) ++ ";")]
    | none => fieldValue scope field s!"m_{id} = " ";" ++ Template.plain (valueMark field "false")
  match field.switchOn with
  | none => plain
  | some selector =>
    if field.hasLiteralCases then
      Slot.line ("switch (" ++ words.expr selector ++ ") \x7b") ::
        field.cases.flatMap (switchArm scope field) ++ [Slot.line "\x7d"]
    else plain

/-- The reads of a field, as often as it is repeated. -/
def fieldBody (scope : Scope) (field : Field) : Template :=
  let id := field.id
  let element := elementType scope field
  let opening := Slot.line
    s!"m_{id} = std::unique_ptr<std::vector<{element}>>(new std::vector<{element}>());"
  match field.repetition, field.repeatExpr with
  | .once, _ => singleRead scope field
  | .times, some count =>
    [opening, Slot.line (s!"const int l_{id} = " ++ (dialect scope).expr count ++ ";"),
        Slot.line s!"for (int i = 0; i < l_{id}; i++) \x7b"] ++
      Template.block (fieldValue scope field s!"m_{id}->push_back(std::move(" "));") ++
      [Slot.line "\x7d"]
  | .stopWhen, some condition =>
    let done := condition.spell ((spelling scope).withItem "repeat_item")
    [opening, Slot.line "while (true) \x7b"] ++
      Template.block (fieldValue scope field "auto repeat_item = " ";" ++
        [Slot.line s!"bool done = {done};",
          Slot.line s!"m_{id}->push_back(std::move(repeat_item));",
          Slot.line "if (done) break;"]) ++
      [Slot.line "\x7d"]
  | _, _ =>
    [opening, Slot.line "while (!m__io->is_eof()) \x7b"] ++
      Template.block (fieldValue scope field s!"m_{id}->push_back(" ");") ++ [Slot.line "\x7d"]

/-- The reads of a field, under its condition. -/
def fieldTemplate (scope : Scope) (field : Field) : Template :=
  let body := fieldBody scope field
  Template.plain (valueMark field "true") ++
    match field.condition with
    | none => body
    | some condition =>
      Slot.line ("if (" ++ (dialect scope).expr condition ++ ") \x7b") :: Template.block body ++
        [Slot.line "\x7d"]

def fieldRead (scope : Scope) (field : Field) : Code :=
  (fieldTemplate scope field).code (dialect scope)

/-- The type of what a validation looks at. -/
def checkedType (scope : Scope) (target : String) : String :=
  match scope.format.field? target, scope.format.instance? target with
  | some field, _ => accessorType scope field
  | none, some inst => instanceType scope inst false
  | none, none => defaultType

def check (scope : Scope) (validation : Validation) : Code :=
  let target := validation.target
  match scope.expectedLiteral? validation with
  | some expected =>
    let value := Text.showInt64 expected
    let type := ((scope.format.field? target).map (storageType scope)).getD defaultType
    let index := Text.showNat ((scope.fieldIndex? target).getD 0)
    Code.branch s!"if (!(m_{target} == {value})) \x7b"
      (s!"throw kaitai::validation_not_equal_error<{type}>({value}, m_{target}, m__io, " ++
        s!"std::string(\"/seq/{index}\"));") ++
      [Step.line "\x7d"]
  | none =>
    let type := checkedType scope target
    Code.branch ("if (!(" ++ (dialect scope).expr validation.condition ++ ")) \x7b")
      (s!"throw kaitai::validation_expr_error<{type}>({target}(), m__io, " ++
        s!"\"/valid/{target}\");") ++
      [Step.line "\x7d"]

/-- Releases the structure an instance holds. -/
def release (inst : Instance) : Code :=
  let id := inst.id
  Step.line s!"if (f_{id} && m_{id}) \x7b" ::
    Code.block [Step.line s!"delete m_{id};", Step.line s!"m_{id} = nullptr;"] ++ [Step.line "\x7d"]

/-- The assignment that gives an instance its value. -/
def instanceBody (scope : Scope) (inst : Instance) : Template :=
  let words := dialect scope
  let id := inst.id
  match inst.body with
  | .value expr => [.line (s!"m_{id} = " ++ words.expr expr ++ ";")]
  | .parse rule =>
    let seek := rule.position.map fun position => "m__io->seek(" ++ words.expr position ++ ");"
    .away "std::streampos _pos = m__io->pos();" seek
      (.keep s!"m_{id} = " ⟨none, scope.ruleRead rule⟩ ";") "m__io->seek(_pos);"

/-- The method of an instance, which computes its value once. -/
def instanceTemplate (scope : Scope) (inst : Instance) : Template :=
  let id := inst.id
  let type := instanceType scope inst true
  let full := fullClass scope
  [Slot.blank, Slot.line s!"{type} {full}::{id}() \x7b"] ++
    Template.block (
      Template.branch s!"if (f_{id})" (.line s!"return m_{id};") ++
      Slot.line s!"f_{id} = true;" :: instanceBody scope inst ++ [Slot.line s!"return m_{id};"]) ++
    [Slot.line "\x7d"]

def instanceMethod (scope : Scope) (inst : Instance) : Code :=
  (instanceTemplate scope inst).code (dialect scope)

/-- The values a new structure starts with. -/
def initials (scope : Scope) : List String :=
  let format := scope.format
  (if scope.isRoot then "m__root = p__root ? p__root : this;" else "m__root = p__root;") ::
  (format.instances.map fun inst => "f_" ++ inst.id ++ " = false;") ++
  ((format.fields.filter (ownsPointer scope)).map fun field => "m_" ++ field.id ++ " = nullptr;") ++
  ((format.instances.filter (ownsInstance scope)).map fun inst =>
    "m_" ++ inst.id ++ " = nullptr;")

/-- The definitions for a scope, then those for the scopes inside it. -/
def classDefs (scope : Scope) (nested : List Code) : Code :=
  let format := scope.format
  let full := fullClass scope
  let title := className scope
  let parent := parentPointer scope
  let root := rootClass scope
  let enums := if scope.isRoot then [] else format.enums
  enums.flatMap (nestedEnumValues scope) ++
    Step.line (s!"{full}::{title}(kaitai::kstream* p__io, {parent} p__parent, {root}* p__root) " ++
      ": kaitai::kstruct(p__io) \x7b") ::
    Code.block (Step.line "m__parent = p__parent;" :: Code.lines (initials scope) ++
      [Step.line "_read();"]) ++
    [Step.line "\x7d", Step.blank, Step.line s!"void {full}::_read() \x7b"] ++
    Code.block (format.fields.flatMap (fieldRead scope) ++
      format.validations.flatMap (check scope)) ++
    [Step.line "\x7d", Step.blank] ++
    Code.branch s!"{full}::~{title}() \x7b" "_clean_up();" ++
    [Step.line "\x7d", Step.blank, Step.line s!"void {full}::_clean_up() \x7b"] ++
    Code.block ((format.instances.filter (ownsInstance scope)).flatMap release) ++
    Step.line "\x7d" ::
    nested.flatMap (Step.blank :: ·) ++
    format.instances.flatMap (instanceMethod scope)

def source (module : Module) : Code :=
  let name := module.root.name
  let exceptions : Code :=
    if module.scopes.any fun scope => !scope.format.validations.isEmpty then
      [Step.line "#include \"kaitai/exceptions.h\""]
    else []
  [Step.line ("// " ++ remark), Step.blank, Step.line s!"#include \"{name}.h\""] ++ exceptions ++
    Step.blank :: module.foldScopes classDefs

def artifacts (module : Module) : List Artifact :=
  [{ path := module.root.name ++ ".h", content := (header module).render "    " },
    { path := module.root.name ++ ".cpp", content := (source module).render "    " }]

end FormatCompiler.Target.CppStl
