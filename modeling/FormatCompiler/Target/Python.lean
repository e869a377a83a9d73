import FormatCompiler.Disk.Path
import FormatCompiler.Target.Template

/-!
Readers for the `python` target: one file, with a class for each scope.
-/

namespace FormatCompiler.Target.Python

set_option autoImplicit false

/-- The names that every reader has besides its members. -/
def ownNames : List String := ["_root", "_parent", "_io"]

def spelling (scope : Scope) : Spelling where
  truth value := if value then "True" else "False"
  name id := if scope.isMember id || ownNames.contains id then "self." ++ id else id
  binary symbol :=
    match symbol with
    | "&&" => "and"
    | "||" => "or"
    | "/" => "//"
    | _ => symbol
  unary symbol := if symbol = "!" then "not " else symbol

def record (scope : Scope) : Structure → String
  | .nested path => scope.classPath "." path ++ "(self._io, self, self._root)"
  | .external name => className (Name.short name) ++ "(self._io)"

def dialect (scope : Scope) : Dialect where
  spelling := spelling scope
  record := record scope
  number method := s!"self._io.{method}()"
  bytes size := s!"self._io.read_bytes({size})"
  allBytes := "self._io.read_bytes_full()"
  text size encoding := s!"(self._io.read_bytes({size})).decode(u\"{encoding}\")"
  noText := "u\"\""
  xor bytes key := s!"KaitaiStream.process_xor_one({bytes}, {key})"
  tagged reference read :=
    let path := scope.enumPath "." className reference
    s!"KaitaiStream.resolve_enum({path}, {read})"

def enumDecl (decl : EnumDecl) : Code :=
  let values := decl.values.map fun entry => entry.name ++ " = " ++ Text.showInt64 entry.value
  Step.line ("class " ++ className (Name.short decl.name) ++ "(IntEnum):") ::
    Code.block (Code.lines values) ++ [Step.blank]

/-- What stands before and after a value to keep it. -/
structure Sink where
  before : String
  after : String

def Sink.assign (target : String) : Sink := ⟨target ++ " = ", ""⟩

def Sink.append (target : String) : Sink := ⟨target ++ ".append(", ")"⟩

def Sink.keep (sink : Sink) (kept : Kept) : Slot :=
  .keep sink.before kept sink.after

/-- What happens where no case of a switch has the value. -/
def otherwise (scope : Scope) (field : Field) (sink : Sink) : Slot :=
  match field.fallback with
  | some case => sink.keep ⟨field.enumName, scope.read field case.type⟩
  | none =>
    .line (if field.hasLiteralCases then sink.before ++ "None" ++ sink.after
      else s!"raise Exception(u\"{noMatch}\")")

/-- The cases of a switch that have a value. -/
def arms (scope : Scope) (field : Field) (sink : Sink) : Template :=
  let head opening value :=
    let literal := (dialect scope).expr value
    s!"{opening} _on == {literal}:"
  .arms head (fun case => sink.keep ⟨field.enumName, scope.read field case.type⟩) "elif" "if"
    field.cases

/-- Keeps one value of a field. -/
def store (scope : Scope) (field : Field) (sink : Sink) : Template :=
  match field.switchOn with
  | none => [sink.keep ⟨field.enumName, scope.read field field.type⟩]
  | some selector =>
    let last := otherwise scope field sink
    Slot.line ("_on = " ++ (dialect scope).expr selector) ::
      match arms scope field sink with
      | [] => [last]
      | template => template ++ Template.branch "else:" last

/-- The reads of a field, as often as it is repeated. -/
def fieldBody (scope : Scope) (field : Field) : Template :=
  let words := dialect scope
  let id := field.id
  let target := "self." ++ id
  match field.repetition with
  | .once =>
    match field.transform with
    | some (.xor key) =>
      [.keep s!"self._raw_{id} = " ⟨none, .bytes field.size none⟩ "",
        .line (s!"{target} = " ++ words.xor s!"self._raw_{id}" (Text.showNat key.toNat))]
    | none => store scope field (.assign target)
  | .times =>
    let count := words.exprOr "0" field.repeatExpr
    [Slot.line s!"{target} = []", Slot.line s!"for i in range({count}):"] ++
      Template.block (store scope field (.append target))
  | .toEnd =>
    [Slot.line s!"{target} = []", Slot.line "i = 0", Slot.line "while not self._io.is_eof():"] ++
      Template.block (store scope field (.append target) ++ [Slot.line "i += 1"])
  | .stopWhen =>
    let condition := words.exprOr "True" field.repeatExpr
    [Slot.line s!"{target} = []", Slot.line "i = 0", Slot.line "while True:"] ++
      Template.block (store scope field (.assign "_") ++
        [Slot.line s!"{target}.append(_)", Slot.line "i += 1"] ++
        Template.branch s!"if {condition}:" (.line "break"))

/-- The reads of a field, under its condition. -/
def fieldTemplate (scope : Scope) (field : Field) : Template :=
  match field.condition with
  | none => fieldBody scope field
  | some condition =>
    Slot.line ("if " ++ (dialect scope).expr condition ++ ":") ::
      Template.block (fieldBody scope field)

def fieldRead (scope : Scope) (field : Field) : Code :=
  (fieldTemplate scope field).code (dialect scope)

def check (scope : Scope) (validation : Validation) : Code :=
  let target := validation.target
  match scope.expectedLiteral? validation with
  | some expected =>
    let value := Text.showInt64 expected
    let index := Text.showNat ((scope.fieldIndex? target).getD 0)
    Code.branch s!"if not self.{target} == {value}:"
      s!"raise ValidationNotEqualError({value}, self.{target}, self._io, u\"/seq/{index}\")"
  | none =>
    let condition := (dialect scope).expr validation.condition
    Code.branch s!"if not ({condition}):"
      s!"raise ValidationExprError(self.{target}, self._io, u\"/valid/{target}\")"

def isNested : Option Structure → Bool
  | some (.nested _) => true
  | _ => false

/-- Asks for the instances of the structures a field holds. -/
def fetchField (scope : Scope) (field : Field) : Code :=
  let id := field.id
  let nested := isNested (scope.fieldStructure? field)
  match field.repetition with
  | .once => if nested then [Step.line s!"self.{id}._fetch_instances()"] else []
  | _ =>
    Code.branch s!"for i in range(len(self.{id})):"
      (if nested then s!"self.{id}[i]._fetch_instances()" else "pass")

/-- Asks for an instance, and for those of the structure it may be. -/
def fetchInstance (scope : Scope) (inst : Instance) : Code :=
  let id := inst.id
  let nested := isNested (inst.rule?.bind fun rule => scope.structure? rule.type)
  Step.line s!"_ = self.{id}" :: Code.branch s!"if hasattr(self, '_m_{id}'):"
    (if nested then s!"self._m_{id}._fetch_instances()" else "pass")

/-- The assignment that gives an instance its value. -/
def instanceBody (scope : Scope) (inst : Instance) : Template :=
  let words := dialect scope
  let id := inst.id
  match inst.body with
  | .value expr => [.line (s!"self._m_{id} = " ++ words.expr expr)]
  | .parse rule =>
    let seek := rule.position.map fun position => "self._io.seek(" ++ words.expr position ++ ")"
    .away "_pos = self._io.pos()" seek (.keep s!"self._m_{id} = " ⟨none, scope.ruleRead rule⟩ "")
      "self._io.seek(_pos)"

/-- The property of an instance, which computes its value once. -/
def instanceTemplate (scope : Scope) (inst : Instance) : Template :=
  let id := inst.id
  [Slot.blank, Slot.line "@property", Slot.line s!"def {id}(self):"] ++
    Template.block (
      Template.branch s!"if hasattr(self, '_m_{id}'):" (.line s!"return self._m_{id}") ++
      Slot.blank :: instanceBody scope inst ++
      [Slot.line s!"return getattr(self, '_m_{id}', None)"])

def instanceProperty (scope : Scope) (inst : Instance) : Code :=
  (instanceTemplate scope inst).code (dialect scope)

/-- The class of a scope around the classes of the scopes inside it. -/
def classCode (scope : Scope) (nested : List Code) : Code :=
  let format := scope.format
  let title := className scope.name
  let path := scope.classPath "." scope.path
  let root := if scope.isRoot then "self._root = _root or self" else "self._root = _root"
  let reads := format.fields.flatMap (fieldRead scope)
  let checks := format.validations.flatMap (check scope)
  let idle : Code :=
    if format.fields.isEmpty && format.validations.isEmpty then [Step.line "pass"] else []
  Step.line s!"class {title}(KaitaiStruct):" ::
    Code.block (
      format.enums.flatMap enumDecl ++
      Step.line "def __init__(self, _io, _parent=None, _root=None):" ::
      Code.block [Step.line s!"super({path}, self).__init__(_io)",
        Step.line "self._parent = _parent", Step.line root, Step.line "self._read()"] ++
      [Step.blank, Step.line "def _read(self):"] ++
      Code.block (reads ++ checks ++ idle) ++
      [Step.blank, Step.line "def _fetch_instances(self):"] ++
      Code.block (Step.line "pass" :: format.fields.flatMap (fetchField scope) ++
        format.instances.flatMap (fetchInstance scope)) ++
      nested.flatMap (Step.blank :: Code.apart ·) ++
      format.instances.flatMap (instanceProperty scope))

/-- Whether some validation of a module asks for a literal, or does not. -/
def hasCheck (module : Module) (literal : Bool) : Bool :=
  module.scopes.any fun scope =>
    scope.format.validations.any fun validation =>
      (scope.expectedLiteral? validation).isSome == literal

def file (module : Module) : Code :=
  let names := ["KaitaiStruct", "KaitaiStream", "BytesIO"] ++
    (if hasCheck module false then ["ValidationExprError"] else []) ++
    (if hasCheck module true then ["ValidationNotEqualError"] else [])
  let enums : Code :=
    if module.scopes.any fun scope => !scope.format.enums.isEmpty then
      [Step.line "from enum import IntEnum"]
    else []
  let imports := module.imported.map fun (stem, name) =>
    "from " ++ stem ++ " import " ++ className (Name.short name)
  [Step.line ("# " ++ remark), Step.line "# type: ignore", Step.blank,
      Step.line "import kaitaistruct",
      Step.line ("from kaitaistruct import " ++ ", ".intercalate names)] ++ enums ++
    [Step.blank, Step.line "if getattr(kaitaistruct, 'API_VERSION', (0, 9)) < (0, 11):"] ++
    Code.block [Step.line ("raise Exception(\"Incompatible Kaitai Struct Python API: " ++
      "0.11 or later is required, but you have %s\" % (kaitaistruct.__version__))")] ++
    Step.blank :: Code.lines imports ++ Code.blankIf (!imports.isEmpty) ++
    module.foldScopes classCode

/-- The parts of a dotted name, without empty ones. -/
def packageParts (package : String) : List String :=
  ((package.toList.splitOn '.').map String.ofList).filter fun part => !part.isEmpty

/-- The path of the file, inside the directories of its package. -/
def filePath (module : Module) (package : Option String) : String :=
  let directory := ((package.map packageParts).getD []).foldl Path.join ""
  Path.join directory (module.root.name ++ ".py")

def artifacts (module : Module) (package : Option String) : List Artifact :=
  [{ path := filePath module package, content := (file module).render "    " }]

end FormatCompiler.Target.Python
