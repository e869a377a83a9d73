import FormatCompiler.Target.Template

/-!
Readers for the `lua` target: one file, with a class table for each scope. The `wireshark_lua`
target adds a dissector that hands packets to the reader.
-/

namespace FormatCompiler.Target.Lua

set_option autoImplicit false

/-- The names that every reader has besides its members. -/
def ownFields : List String := ["_root", "_parent", "_io"]

/-- A member as seen from inside its class. A computed instance is a method. -/
def member (scope : Scope) (id : String) : String :=
  match scope.format.instance? id with
  | some { body := .value _, .. } => s!"self:{id}()"
  | some { body := .parse _, .. } => s!"self.{id}"
  | none =>
    if (scope.format.field? id).isSome || ownFields.contains id then s!"self.{id}" else id

def spelling (scope : Scope) : Spelling where
  truth value := if value then "true" else "false"
  name := member scope
  binary symbol :=
    match symbol with
    | "&&" => "and"
    | "||" => "or"
    | "!=" => "~="
    | "/" => "//"
    | "^" => "~"
    | _ => symbol
  unary symbol := if symbol = "!" then "not " else symbol

def record (scope : Scope) : Structure → String
  | .nested path => scope.classPath "." path ++ "(self._io, self, self._root)"
  | .external name => className (Name.short name) ++ "(self._io)"

def dialect (scope : Scope) : Dialect where
  spelling := spelling scope
  record := record scope
  number method := s!"self._io:{method}()"
  bytes size := s!"self._io:read_bytes({size})"
  allBytes := "self._io:read_bytes_full()"
  text size encoding := s!"str_decode.decode(self._io:read_bytes({size}), \"{encoding}\")"
  noText := "\"\""
  xor bytes key := s!"KaitaiStream.process_xor_one({bytes}, {key})"
  tagged reference read :=
    let path := scope.enumPath "." className reference
    s!"{path}({read})"

def enumDecl (scope : Scope) (decl : EnumDecl) : Code :=
  let path := scope.classPath "." scope.path
  let title := className (Name.short decl.name)
  let values := decl.values.map fun entry =>
    entry.name ++ " = " ++ Text.showInt64 entry.value ++ ","
  [Step.blank, Step.line s!"{path}.{title} = enum.Enum \x7b"] ++ Code.block (Code.lines values) ++
    [Step.line "\x7d"]

/-- What happens where no case of a switch has the value, if anything does. -/
def otherwise (scope : Scope) (field : Field) (start : String) : Option Slot :=
  match field.fallback with
  | some case => some (.keep start ⟨field.enumName, scope.read field case.type⟩ "")
  | none => if field.hasLiteralCases then none else some (.line s!"error(\"{noMatch}\")")

/-- The cases of a switch that have a value. -/
def arms (scope : Scope) (field : Field) (start : String) : Template :=
  let head opening value := opening ++ " _on == " ++ (dialect scope).expr value ++ " then"
  .arms head (fun case => .keep start ⟨field.enumName, scope.read field case.type⟩ "") "elseif" "if"
    field.cases

/-- Puts one value of a field behind `start`. -/
def store (scope : Scope) (field : Field) (start : String) : Template :=
  match field.switchOn with
  | none => [.keep start ⟨field.enumName, scope.read field field.type⟩ ""]
  | some selector =>
    let last := (otherwise scope field start).toList
    Slot.line ("local _on = " ++ (dialect scope).expr selector) ::
      match arms scope field start with
      | [] => last
      | template => template ++ last.flatMap (Template.branch "else") ++ [Slot.line "end"]

/-- The condition that ends a repetition, on the item just read. -/
def stopCondition (scope : Scope) : Option Expr → String
  | some condition => condition.spell ((spelling scope).withItem "repeat_item")
  | none => "true"

/-- The reads of a field, as often as it is repeated. -/
def fieldBody (scope : Scope) (field : Field) : Template :=
  let words := dialect scope
  let id := field.id
  let target := "self." ++ id
  let opening := Slot.line s!"{target} = \x7b\x7d"
  match field.repetition with
  | .once =>
    match field.transform with
    | some (.xor key) =>
      [.keep s!"self._raw_{id} = " ⟨none, .bytes field.size none⟩ "",
        .line (s!"{target} = " ++ words.xor s!"self._raw_{id}" (Text.showNat key.toNat))]
    | none => store scope field s!"{target} = "
  | .times =>
    let count := words.exprOr "0" field.repeatExpr
    [opening, Slot.line s!"for i = 1, {count} do"] ++
      Template.block (store scope field s!"{target}[i] = ") ++ [Slot.line "end"]
  | .toEnd =>
    [opening, Slot.line "while not self._io:is_eof() do"] ++
      Template.block (store scope field s!"{target}[#{target} + 1] = ") ++ [Slot.line "end"]
  | .stopWhen =>
    let condition := stopCondition scope field.repeatExpr
    let item : Template :=
      match field.switchOn with
      | some _ => .line "local repeat_item" :: store scope field "repeat_item = "
      | none => store scope field "local repeat_item = "
    [opening, Slot.line "while true do"] ++
      Template.block (item ++ Slot.line s!"{target}[#{target} + 1] = repeat_item" ::
        Template.branch s!"if {condition} then" (.line "break") ++ [Slot.line "end"]) ++
      [Slot.line "end"]

/-- The reads of a field, under its condition. -/
def fieldTemplate (scope : Scope) (field : Field) : Template :=
  match field.condition with
  | none => fieldBody scope field
  | some condition =>
    Slot.line ("if " ++ (dialect scope).expr condition ++ " then") ::
      Template.block (fieldBody scope field) ++ [Slot.line "end"]

def fieldRead (scope : Scope) (field : Field) : Code :=
  (fieldTemplate scope field).code (dialect scope)

def check (scope : Scope) (validation : Validation) : Code :=
  let target := validation.target
  match scope.expectedLiteral? validation with
  | some expected =>
    let literal := Text.showInt64 expected
    Code.branch s!"if not(self.{target} == {literal}) then"
      s!"error(\"not equal, expected \" .. {literal} .. \", but got \" .. self.{target})" ++
      [Step.line "end"]
  | none =>
    let condition := (dialect scope).expr validation.condition
    Code.branch s!"if not({condition}) then" s!"error(\"validation failed: /valid/{target}\")" ++
      [Step.line "end"]

/-- The method of an instance that is computed, or the property of one that is read. -/
def instanceTemplate (scope : Scope) (inst : Instance) : Template :=
  let words := dialect scope
  let title := scope.classPath "." scope.path
  let id := inst.id
  match inst.body with
  | .value expr =>
    [Slot.blank, Slot.line s!"function {title}:{id}()"] ++
      Template.block [Slot.line s!"if self._m_{id} ~= nil then return self._m_{id} end",
        Slot.line (s!"self._m_{id} = " ++ words.expr expr), Slot.line s!"return self._m_{id}"] ++
      [Slot.line "end"]
  | .parse rule =>
    let seek := rule.position.map fun position => "self._io:seek(" ++ words.expr position ++ ")"
    [Slot.blank, Slot.line s!"{title}.property.{id} = \x7b\x7d",
        Slot.line s!"function {title}.property.{id}:get()"] ++
      Template.block (
        Template.branch s!"if self._m_{id} ~= nil then" (.line s!"return self._m_{id}") ++
        [Slot.line "end", Slot.blank] ++
        Template.away "local _pos = self._io:pos()" seek
          (.keep s!"self._m_{id} = " ⟨none, scope.ruleRead rule⟩ "") "self._io:seek(_pos)" ++
        [Slot.line s!"return self._m_{id}"]) ++
      [Slot.line "end"]

def instanceCode (scope : Scope) (inst : Instance) : Code :=
  (instanceTemplate scope inst).code (dialect scope)

/-- The code of a class before the reads of its fields. -/
def classHead (scope : Scope) : Code :=
  let title := scope.classPath "." scope.path
  let root := if scope.isRoot then "self._root = _root or self" else "self._root = _root"
  [Step.blank, Step.line s!"{title} = class.class(KaitaiStruct)"] ++
    scope.format.enums.flatMap (enumDecl scope) ++
    [Step.blank, Step.line s!"function {title}:_init(io, _parent, _root)"] ++
    Code.block [Step.line "KaitaiStruct._init(self, io)", Step.line "self._parent = _parent",
      Step.line root, Step.line "self:_read()"] ++
    [Step.line "end", Step.blank, Step.line s!"function {title}:_read()"]

/-- The class table of a scope, without those of the scopes inside it. -/
def classTemplate (scope : Scope) : Template :=
  let format := scope.format
  Template.plain (classHead scope) ++
    Template.block (format.fields.flatMap (fieldTemplate scope) ++
      Template.plain (format.validations.flatMap (check scope))) ++
    Slot.line "end" :: format.instances.flatMap (instanceTemplate scope)

/-- The class table of a scope, then those of the scopes inside it. -/
def classCode (scope : Scope) (nested : List Code) : Code :=
  (classTemplate scope).code (dialect scope) ++ nested.flatten

/-- Whether a type stands for text whose size is given. -/
def isSizedText (scope : Scope) (type : TypeRef) (size : Option Expr) : Bool :=
  size.isSome && scope.primitive? type == some .str

/-- Whether a scope declares something read as text of a given size. -/
def needsDecoder (scope : Scope) : Bool :=
  (scope.format.fields.any fun field => isSizedText scope field.type field.size) ||
    (scope.format.instances.filterMap Instance.rule?).any fun rule =>
      isSizedText scope rule.type rule.size

/-- The line that loads what tables of enums are made with. -/
def enumLine : String := "local enum = require(\"enum\")"

/-- The line that loads the decoder of text. -/
def decoderLine : String := "local str_decode = require(\"string_decode\")"

/-- The libraries and imports that a module needs. -/
def requires (module : Module) : List String :=
  (if module.scopes.any fun scope => !scope.format.enums.isEmpty then [enumLine] else []) ++
  (if module.scopes.any needsDecoder then [decoderLine] else []) ++
  module.importedStems.map fun stem => s!"require(\"{stem}\")"

/-- The dissector that hands the bytes of a packet to the reader. -/
def dissector (module : Module) : Code :=
  let name := module.root.name
  let title := className name
  [Step.blank, Step.line "-- Wireshark Lua dissector",
      Step.line s!"local {name}_proto = Proto(\"{name}\", \"{title}\")", Step.blank,
      Step.line s!"function {name}_proto.dissector(tvb, pinfo, tree)"] ++
    Code.block (
      [Step.line s!"pinfo.cols.protocol = \"{title}\"",
        Step.line s!"local subtree = tree:add({name}_proto, tvb())"] ++
      Code.branch "local status, parsed = pcall(function()"
        s!"return {title}:from_string(tvb:range():string())" ++
      Step.line "end)" ::
      Code.branch "if not status then" ("subtree:add_expert_info(PI_MALFORMED, PI_ERROR, " ++
        "\"Kaitai Struct parse error: \" .. parsed)") ++
      [Step.line "end"]) ++
    [Step.line "end", Step.blank,
      Step.line "-- Register the dissector on the desired port by setting this.",
      Step.line s!"local {name}_proto_default_port = 0"] ++
    Code.branch s!"if {name}_proto_default_port > 0 then"
      s!"DissectorTable.get(\"tcp.port\"):add({name}_proto_default_port, {name}_proto)" ++
    [Step.line "end"]

/-- What every file starts with. -/
def opening : Code :=
  [.line ("-- " ++ remark), .line "--", .line "-- This file is compatible with Lua 5.3", .blank,
    .line "local class = require(\"class\")",
    .line "if _G[\"KaitaiStruct\"] == nil then require(\"kaitaistruct\") end"]

def file (module : Module) : Code :=
  opening ++ Code.lines (requires module) ++ module.foldScopes classCode

def artifacts (module : Module) : List Artifact :=
  [{ path := module.root.name ++ ".lua", content := (file module).render "  " }]

def dissectorArtifacts (module : Module) : List Artifact :=
  [{ path := module.root.name ++ "_wireshark.lua",
     content := (file module ++ dissector module).render "  " }]

end FormatCompiler.Target.Lua
