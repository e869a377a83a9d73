import FormatCompiler.Target.Template

/-!
Readers for the `ruby` target: one file, with a class for each scope.
-/

namespace FormatCompiler.Target.Ruby

set_option autoImplicit false

/-- The constant that holds the values of an enum. -/
def constant (name : String) : String :=
  String.ofList (Text.shoutySnake name.toList)

def spelling : Spelling where
  truth value := if value then "true" else "false"
  name := id

def record (scope : Scope) : Structure → String
  | .nested path => scope.classPath "::" path ++ ".new(@_io, self, @_root)"
  | .external name => className (Name.short name) ++ ".new(@_io)"

def dialect (scope : Scope) : Dialect where
  spelling := spelling
  record := record scope
  number method := s!"@_io.{method}"
  bytes size := s!"@_io.read_bytes({size})"
  allBytes := "@_io.read_bytes_full"
  text size encoding := s!"(@_io.read_bytes({size})).force_encoding(\"{encoding}\").encode('UTF-8')"
  noText := "''"
  xor bytes key := s!"Kaitai::Struct::Stream::process_xor_one({bytes}, {key})"
  tagged reference read :=
    let path := scope.enumPath "::" constant reference
    s!"Kaitai::Struct::Stream::resolve_enum({path}, {read})"

def enumDecl (decl : EnumDecl) : Code :=
  let short := Name.short decl.name
  let title := constant short
  let entries := decl.values.map fun entry =>
    Text.showInt64 entry.value ++ " => :" ++ short ++ "_" ++ entry.name ++ ","
  [Step.blank, Step.line s!"{title} = \x7b"] ++ Code.block (Code.lines entries) ++
    [Step.line "\x7d", Step.line s!"I__{title} = {title}.invert"]

/-- One case of a switch. -/
def arm (scope : Scope) (field : Field) (start : String) (case : SwitchCase) : Template :=
  let head := match case.value with
    | some value => "when " ++ (dialect scope).expr value
    | none => "else"
  .branch head (.keep start ⟨field.enumName, scope.read field case.type⟩ "")

/-- The cases of a switch, the fallback last. -/
def arms (scope : Scope) (field : Field) (start : String) : Template :=
  let (valued, fallbacks) := field.cases.partition fun case => case.value.isSome
  let missing :=
    if field.fallback.isNone && !field.hasLiteralCases then
      Code.branch "else" s!"raise \"{noMatch}\""
    else []
  (valued ++ fallbacks).flatMap (arm scope field start) ++ Template.plain missing

/-- Puts one value of a field behind `start`. -/
def store (scope : Scope) (field : Field) (start : String) : Template :=
  match field.switchOn with
  | none => [.keep start ⟨field.enumName, scope.read field field.type⟩ ""]
  | some selector =>
    Slot.line ("case " ++ (dialect scope).expr selector) :: arms scope field start ++
      [Slot.line "end"]

/-- The reads of a field, as often as it is repeated. -/
def fieldBody (scope : Scope) (field : Field) : Template :=
  let words := dialect scope
  let id := field.id
  match field.repetition with
  | .once =>
    match field.transform with
    | some (.xor key) =>
      [.keep s!"@_raw_{id} = " ⟨none, .bytes field.size none⟩ "",
        .line (s!"@{id} = " ++ words.xor s!"@_raw_{id}" (Text.showNat key.toNat))]
    | none => store scope field s!"@{id} = "
  | .times =>
    let count := words.exprOr "0" field.repeatExpr
    [Slot.line s!"@{id} = []", Slot.line s!"({count}).times \x7b |i|"] ++
      Template.block (store scope field s!"@{id} << ") ++ [Slot.line "\x7d"]
  | .toEnd =>
    [Slot.line s!"@{id} = []", Slot.line "i = 0", Slot.line "while not @_io.eof?"] ++
      Template.block (store scope field s!"@{id} << " ++ [Slot.line "i += 1"]) ++ [Slot.line "end"]
  | .stopWhen =>
    let condition := words.exprOr "true" field.repeatExpr
    [Slot.line s!"@{id} = []", Slot.line "i = 0", Slot.line "loop do"] ++
      Template.block (store scope field "_ = " ++
        [Slot.line s!"@{id} << _", Slot.line "i += 1", Slot.line s!"break if {condition}"]) ++
      [Slot.line "end"]

/-- The reads of a field, under its condition. -/
def fieldTemplate (scope : Scope) (field : Field) : Template :=
  match field.condition with
  | none => fieldBody scope field
  | some condition =>
    Slot.line ("if " ++ (dialect scope).expr condition) ::
      Template.block (fieldBody scope field) ++ [Slot.line "end"]

def fieldRead (scope : Scope) (field : Field) : Code :=
  (fieldTemplate scope field).code (dialect scope)

def check (scope : Scope) (validation : Validation) : Code :=
  let target := validation.target
  match scope.expectedLiteral? validation with
  | some expected =>
    let value := Text.showInt64 expected
    let index := Text.showNat ((scope.fieldIndex? target).getD 0)
    [Step.line (s!"raise Kaitai::Struct::ValidationNotEqualError.new({value}, @{target}, @_io, " ++
      s!"\"/seq/{index}\") if not @{target} == {value}")]
  | none =>
    let condition := (dialect scope).expr validation.condition
    [Step.line (s!"raise Kaitai::Struct::ValidationExprError.new(@{target}, @_io, " ++
      s!"'/valid/{target}') if !({condition})")]

/-- The assignment that gives an instance its value. -/
def instanceBody (scope : Scope) (inst : Instance) : Template :=
  let words := dialect scope
  let id := inst.id
  match inst.body with
  | .value expr => [.line (s!"@{id} = " ++ words.expr expr)]
  | .parse rule =>
    let seek := rule.position.map fun position => "@_io.seek(" ++ words.expr position ++ ")"
    .away "_pos = @_io.pos" seek (.keep s!"@{id} = " ⟨none, scope.ruleRead rule⟩ "")
      "@_io.seek(_pos)"

/-- The method of an instance, which computes its value once. -/
def instanceTemplate (scope : Scope) (inst : Instance) : Template :=
  let id := inst.id
  [Slot.blank, Slot.line s!"def {id}"] ++
    Template.block (Slot.line s!"return @{id} unless @{id}.nil?" :: instanceBody scope inst ++
      [Slot.line s!"@{id}"]) ++
    [Slot.line "end"]

def instanceMethod (scope : Scope) (inst : Instance) : Code :=
  (instanceTemplate scope inst).code (dialect scope)

/-- The class of a scope around the classes of the scopes inside it. -/
def classCode (scope : Scope) (nested : List Code) : Code :=
  let format := scope.format
  let title := className scope.name
  let root := if scope.isRoot then "_root || self" else "_root"
  let readers := format.fields.map fun field => "attr_reader :" ++ field.id
  Step.line s!"class {title} < Kaitai::Struct::Struct" ::
    Code.block (
      format.enums.flatMap enumDecl ++
      [Step.blank, Step.line "def initialize(_io, _parent = nil, _root = nil)"] ++
      Code.block [Step.line s!"super(_io, _parent, {root})", Step.line "_read"] ++
      [Step.line "end", Step.blank, Step.line "def _read"] ++
      Code.block (format.fields.flatMap (fieldRead scope) ++
        format.validations.flatMap (check scope) ++ [Step.line "self"]) ++
      Step.line "end" ::
      nested.flatMap (Step.blank :: Code.apart ·) ++
      format.instances.flatMap (instanceMethod scope) ++
      Code.blankIf (!readers.isEmpty) ++ Code.lines readers) ++
    [Step.line "end"]

def file (module : Module) : Code :=
  let requires := module.importedStems.map fun stem => s!"require '{stem}'"
  [Step.line ("# " ++ remark), Step.blank, Step.line "require 'kaitai/struct/struct'"] ++
    Code.lines requires ++
    [Step.blank,
      Step.line "unless Gem::Version.new(Kaitai::Struct::VERSION) >= Gem::Version.new('0.11')"] ++
    Code.block [Step.line (
      "raise \"Incompatible Kaitai Struct Ruby API: 0.11 or later is required, " ++
      "but you have #\x7bKaitai::Struct::VERSION\x7d\"")] ++
    [Step.line "end", Step.blank] ++
    module.foldScopes classCode

def artifacts (module : Module) : List Artifact :=
  [{ path := module.root.name ++ ".rb", content := (file module).render "  " }]

end FormatCompiler.Target.Ruby
