import FormatCompiler.Diagnostic.Basic
import FormatCompiler.Module.Basic

/-!
Warnings about what a generated reader will not do. Text without a size cannot be read, so a reader
takes it to be empty.
-/

namespace FormatCompiler

set_option autoImplicit false

/-- A text field or instance that has no size: the keyword of its row, and its name. -/
structure Sizeless where
  keyword : String
  id : String
  deriving DecidableEq, Repr

namespace Scope

def sizelessField? (scope : Scope) (field : Field) : Option Sizeless :=
  if field.size.isNone && (scope.fieldStructure? field).isNone &&
      scope.fieldPrimitive? field == some .str then
    some ⟨"attr", field.id⟩
  else none

def sizelessInstance? (scope : Scope) (inst : Instance) : Option Sizeless := do
  let rule ← inst.rule?
  if rule.size.isNone && scope.primitive? rule.type == some .str then some ⟨"instance", inst.id⟩
  else none

def sizeless (scope : Scope) : List Sizeless :=
  scope.format.fields.filterMap scope.sizelessField? ++
    scope.format.instances.filterMap scope.sizelessInstance?

/-- The qualified name of the structure of a scope. -/
def fullName (scope : Scope) : String :=
  if scope.isRoot then scope.module.root.name
  else scope.module.root.name ++ "::" ++ scope.path

end Scope

namespace Sizeless

/-- What the row that declares it starts with. -/
def rowStart (sizeless : Sizeless) : List Char :=
  (sizeless.keyword ++ " \"" ++ sizeless.id ++ "\"").toList

/-- The first line, counted from `line`, that starts as its row does. -/
def findRow? (sizeless : Sizeless) (line : Nat) : List (List Char) → Option (Nat × List Char)
  | [] => none
  | text :: rest =>
    if sizeless.rowStart.isPrefixOf text then some (line, text)
    else sizeless.findRow? (line + 1) rest

/-- Where the listing declares it, given the path and the text of the listing. -/
def span? (sizeless : Sizeless) (source : Option (String × List Char)) : Option Span := do
  let (file, content) ← source
  let (line, text) ← sizeless.findRow? 1 (Text.lines content)
  (Span.ofLine file line text 0 (Text.Utf8.size sizeless.rowStart)).toOption

def diagnostic (sizeless : Sizeless) (owner : String) (source : Option (String × List Char)) :
    Diagnostic where
  severity := .warning
  message :=
    "str " ++ sizeless.keyword ++ " `" ++ sizeless.id ++ "` of `" ++ owner ++ "` has no size"
  note := some "it is emitted as an always-empty string"
  help := some "give the field a size"
  span := sizeless.span? source

end Sizeless

/-- A warning for every text without a size. -/
def Module.lint (module : Module) (source : Option (String × List Char)) : List Diagnostic :=
  module.scopes.flatMap fun scope =>
    scope.sizeless.map fun sizeless => sizeless.diagnostic scope.fullName source

end FormatCompiler
