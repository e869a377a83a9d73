import FormatCompiler.Expr.Reader
import FormatCompiler.Format.Basic
import FormatCompiler.Listing.Writer
import FormatCompiler.Text.Basic
import FormatCompiler.Text.Words

/-!
Reading a listing. Short rows of older listings are accepted: a field row may stop after the
size, after the encoding or after the switch cases, an instance row may give its expression without
saying that it is a value, and the section of imports may be missing. A listing that cannot be read
is reported by the line at fault.
-/

namespace FormatCompiler.Listing

set_option autoImplicit false

/-- The kinds of rows that sections consist of. -/
inductive RowKind where
  | importRow
  | typeRow
  | fieldRow
  | enumRow
  | enumValueRow
  | instanceRow
  | validationRow
  deriving DecidableEq, Repr

/-- What a row of some kind is called in messages. -/
def RowKind.title : RowKind → String
  | .importRow => "import"
  | .typeRow => "type"
  | .fieldRow => "attr"
  | .enumRow => "enum"
  | .enumValueRow => "enum value"
  | .instanceRow => "instance"
  | .validationRow => "validation"

/-- The word a row of some kind starts with. -/
def RowKind.keyword : RowKind → String
  | .enumValueRow => "enum_value"
  | kind => kind.title

/-- Why a row cannot be read. -/
inductive RowFault where
  | noHeader
  | badName
  | badOrder
  | noSection (name : String)
  | badSection (name : String)
  /-- The listing ends before the last row a section announced. -/
  | truncated (kind : RowKind)
  | badRow (kind : RowKind)
  | unknownOrder (word : String)
  | unknownPrimitive (word : String)
  | unknownRepetition (word : String)
  | unknownTypeKind (word : String)
  | unknownTransform (word : String)
  | badKey (word : String)
  | expr (fault : Expr.Fault)
  | noEnd
  deriving DecidableEq, Repr

def RowFault.message : RowFault → String
  | .noHeader => "missing KSIR1 header"
  | .badName => "invalid name line"
  | .badOrder => "invalid default_endian line"
  | .noSection name => "missing section header: " ++ name
  | .badSection name => "invalid section header: " ++ name
  | .truncated kind => "truncated " ++ kind.title ++ " section"
  | .badRow kind => "invalid " ++ kind.title ++ " row"
  | .unknownOrder word => "invalid endian: " ++ word
  | .unknownPrimitive word => "invalid primitive type: " ++ word
  | .unknownRepetition word => "invalid repeat kind: " ++ word
  | .unknownTypeKind word => "unknown type reference kind: " ++ word
  | .unknownTransform word => "invalid process: " ++ word
  | .badKey word => "invalid process: xor_const " ++ word
  | .expr fault => fault.message
  | .noEnd => "missing end marker"

/-- A row that cannot be read: its number, counted from one, its text and the reason. -/
structure Malformed where
  line : Nat
  text : String
  fault : RowFault
  deriving DecidableEq, Repr

/-- Reads a value off the front of the words of a row. -/
abbrev WordReader := StateT (List String) (Except RowFault)

namespace WordReader

/-- The next word; `bad` is the fault when there is none. -/
def word (bad : RowFault) : WordReader String := fun words =>
  match words with
  | [] => .error bad
  | first :: rest => .ok (first, rest)

/-- Whether the row has no further word. -/
def atEnd : WordReader Bool := fun words =>
  .ok (words.isEmpty, words)

/-- The row has to end here. -/
def finish (bad : RowFault) : WordReader Unit := fun words =>
  match words with
  | [] => .ok ((), [])
  | _ :: _ => .error bad

def keyword (bad : RowFault) (expected : String) : WordReader Unit := do
  let found ← word bad
  if found ≠ expected then throw bad

/-- A word that has to mean something, or else is at fault itself. -/
def known {α : Type} (bad : RowFault) (meaning : String → Option α) (unknown : String → RowFault) :
    WordReader α := do
  let found ← word bad
  match meaning found with
  | some value => return value
  | none => throw (unknown found)

def number {α : Type} (bad : RowFault) (meaning : List Char → Option α) : WordReader α :=
  known bad (fun found => meaning found.toList) fun _ => bad

def exprOf (text : String) : Except RowFault Expr :=
  (Expr.read text.toList).mapError .expr

def expr (bad : RowFault) : WordReader Expr := do
  exprOf (← word bad)

/-- Nothing, when the word says so. -/
def optional {α : Type} (bad : RowFault) (meaning : String → Except RowFault α) :
    WordReader (Option α) := do
  let found ← word bad
  if found = absent then return none
  let value ← meaning found
  return some value

def optionalExpr (bad : RowFault) : WordReader (Option Expr) :=
  optional bad exprOf

def optionalText (bad : RowFault) : WordReader (Option String) :=
  optional bad .ok

def orderOf (word : String) : Except RowFault ByteOrder :=
  match ByteOrder.ofWord? word with
  | some order => .ok order
  | none => .error (.unknownOrder word)

def optionalOrder (bad : RowFault) : WordReader (Option ByteOrder) :=
  optional bad orderOf

def typeRef (bad : RowFault) : WordReader TypeRef := do
  let kind ← word bad
  let payload ← word bad
  if kind = "primitive" then
    match Primitive.ofWord? payload with
    | some type => return .primitive type
    | none => throw (.unknownPrimitive payload)
  else if kind = "user" then return .named payload
  else throw (.unknownTypeKind kind)

def importName : WordReader String := do
  let bad := RowFault.badRow .importRow
  keyword bad RowKind.importRow.keyword
  let name ← word bad
  finish bad
  return name

def typeDecl : WordReader TypeDecl := do
  let bad := RowFault.badRow .typeRow
  keyword bad RowKind.typeRow.keyword
  let name ← word bad
  let type ← typeRef bad
  finish bad
  return { name, type }

def switchCase (bad : RowFault) : WordReader SwitchCase := do
  let value ← word bad
  let type ← typeRef bad
  if value = otherwise then return { value := none, type }
  let value ← exprOf value
  return { value := some value, type }

def switchCases (bad : RowFault) : Nat → WordReader (List SwitchCase)
  | 0 => return []
  | size + 1 => do
    let case ← switchCase bad
    let rest ← switchCases bad size
    return case :: rest

def transform (bad : RowFault) : WordReader (Option Transform) := do
  let found ← word bad
  if found = absent then return none
  else if found = "xor_const" then
    let key ← known bad (fun key => Text.readByte key.toList) .badKey
    return some (.xor key)
  else throw (.unknownTransform found)

/-- What a field row holds from the condition on. -/
def fieldRest (bad : RowFault) (field : Field) : WordReader Field := do
  let condition ← optionalExpr bad
  let repetition ← known bad Repetition.ofWord? .unknownRepetition
  let repeatExpr ← optionalExpr bad
  let switchOn ← optionalExpr bad
  let size ← number bad Text.readCount
  let cases ← switchCases bad size
  let field := { field with condition, repetition, repeatExpr, switchOn, cases }
  if ← atEnd then return field
  let transform ← transform bad
  finish bad
  return { field with transform }

def field : WordReader Field := do
  let bad := RowFault.badRow .fieldRow
  keyword bad RowKind.fieldRow.keyword
  let id ← word bad
  let type ← typeRef bad
  let order ← optionalOrder bad
  let size ← optionalExpr bad
  let field : Field := { id, type, order, size }
  if ← atEnd then return field
  let enumName ← optionalText bad
  let encoding ← optionalText bad
  let field := { field with enumName, encoding }
  if ← atEnd then return field
  fieldRest bad field

def enumHead : WordReader (String × Nat) := do
  let bad := RowFault.badRow .enumRow
  keyword bad RowKind.enumRow.keyword
  let name ← word bad
  let size ← number bad Text.readCount
  finish bad
  return (name, size)

def enumValue : WordReader EnumValue := do
  let bad := RowFault.badRow .enumValueRow
  keyword bad RowKind.enumValueRow.keyword
  let value ← number bad Text.readInt64
  let name ← word bad
  finish bad
  return { value, name }

def parseRule (bad : RowFault) : WordReader ParseRule := do
  let type ← typeRef bad
  let order ← optionalOrder bad
  let position ← optionalExpr bad
  let size ← optionalExpr bad
  let encoding ← optionalText bad
  return { type, order, position, size, encoding }

def instanceBody (bad : RowFault) : WordReader InstanceBody := do
  let kind ← word bad
  if kind = "value" then return .value (← expr bad)
  else if kind = "parse" then return .parse (← parseRule bad)
  else return .value (← exprOf kind)

def instanceDecl : WordReader Instance := do
  let bad := RowFault.badRow .instanceRow
  keyword bad RowKind.instanceRow.keyword
  let id ← word bad
  let body ← instanceBody bad
  finish bad
  return { id, body }

def validation : WordReader Validation := do
  let bad := RowFault.badRow .validationRow
  keyword bad RowKind.validationRow.keyword
  let target ← word bad
  let condition ← expr bad
  let message ← word bad
  finish bad
  return { target, condition, message }

def formatName : WordReader String := do
  keyword .badName "name"
  word .badName

def formatOrder : WordReader ByteOrder := do
  keyword .badOrder "default_endian"
  known .badOrder ByteOrder.ofWord? .unknownOrder

def sectionSize (name : String) : WordReader Nat := do
  let bad := RowFault.badSection name
  keyword bad name
  let size ← number bad Text.readCount
  finish bad
  return size

end WordReader

/-- A row of the listing cut into words. -/
structure WordRow where
  line : Nat
  text : String
  words : List String
  deriving DecidableEq, Repr

/-- The value of a row. -/
def WordRow.decode {α : Type} (row : WordRow) (reader : WordReader α) : Except Malformed α :=
  match reader.run row.words with
  | .ok (value, _) => .ok value
  | .error fault => .error ⟨row.line, row.text, fault⟩

/-- The lines of a listing that are still to be read, and how many were read before them. -/
structure Lines where
  line : Nat
  rest : List (List Char)
  deriving DecidableEq, Repr

/-- Reads lines off the front of a listing. -/
abbrev LineReader := StateT Lines (Except Malformed)

namespace LineReader

/-- The next line with its number. The number grows even where no line is left. -/
def line : LineReader (Nat × Option (List Char)) := fun lines =>
  match lines.rest with
  | [] => .ok ((lines.line + 1, none), ⟨lines.line + 1, []⟩)
  | first :: rest => .ok ((lines.line + 1, some first), ⟨lines.line + 1, rest⟩)

/-- The first word of the next line. -/
def peek : LineReader (Option String) := fun lines =>
  .ok ((lines.rest.head?.map fun first => String.ofList (Text.firstWord first)), lines)

/-- The next row, cut into words. -/
def row (missing bad : RowFault) : LineReader WordRow := do
  match ← line with
  | (number, none) => throw ⟨number, "", missing⟩
  | (number, some text) =>
    match Text.words text with
    | none => throw ⟨number, String.ofList text, bad⟩
    | some words => return ⟨number, String.ofList text, words.map String.ofList⟩

/-- A line that has to be a fixed mark. -/
def mark (trim : List Char → List Char) (expected : String) (fault : RowFault) :
    LineReader Unit := do
  let (number, text) ← line
  if text.map trim ≠ some expected.toList then
    throw ⟨number, String.ofList (text.getD []), fault⟩

/-- The next row, read as one value. -/
def value {α : Type} (missing bad : RowFault) (reader : WordReader α) : LineReader α := do
  let row ← row missing bad
  row.decode reader

def sectionSize (name : String) : LineReader Nat :=
  value (.noSection name) (.badSection name) (WordReader.sectionSize name)

def takeRows (kind : RowKind) : Nat → LineReader (List WordRow)
  | 0 => return []
  | size + 1 => do
    let first ← row (.truncated kind) (.badRow kind)
    let rest ← takeRows kind size
    return first :: rest

/-- A section: all its rows are cut into words before the first of them is read. -/
def sectionRows {α : Type} (name : String) (kind : RowKind) (reader : WordReader α) :
    LineReader (List α) := do
  let size ← sectionSize name
  let rows ← takeRows kind size
  rows.mapM fun row => row.decode reader

def enumValues : Nat → LineReader (List EnumValue)
  | 0 => return []
  | size + 1 => do
    let first ← value (.truncated .enumValueRow) (.badRow .enumValueRow) WordReader.enumValue
    let rest ← enumValues size
    return first :: rest

def enums : Nat → LineReader (List EnumDecl)
  | 0 => return []
  | size + 1 => do
    let (name, count) ← value (.truncated .enumRow) (.badRow .enumRow) WordReader.enumHead
    let values ← enumValues count
    let rest ← enums size
    return { name, values } :: rest

def imports : LineReader (List String) := do
  if (← peek) = some "imports" then sectionRows "imports" .importRow WordReader.importName
  else return []

def format : LineReader Format := do
  mark Text.trimEnd header .noHeader
  let name ← value .badName .badName WordReader.formatName
  let order ← value .badOrder .badOrder WordReader.formatOrder
  let imports ← imports
  let types ← sectionRows "types" .typeRow WordReader.typeDecl
  let fields ← sectionRows "attrs" .fieldRow WordReader.field
  let enums ← enums (← sectionSize "enums")
  let instances ← sectionRows "instances" .instanceRow WordReader.instanceDecl
  let validations ← sectionRows "validations" .validationRow WordReader.validation
  mark Text.trim endMark .noEnd
  return { name, order, imports, types, fields, enums, instances, validations }

end LineReader

/-- Reads a listing. What follows the end mark is not looked at. -/
def read (text : List Char) : Except Malformed Format :=
  (LineReader.format.run ⟨0, Text.lines text⟩).map Prod.fst

end FormatCompiler.Listing
