import FormatCompiler.Compilation.Options
import FormatCompiler.Imports.Merge
import FormatCompiler.Module.Lint

/-!
Compiling a listing: loading it with its imports, warning about what its readers will not do, and
writing the files of every target. A fault is described by its message, by what caused it, and for
a malformed listing by the row that is at fault.
-/

namespace FormatCompiler

set_option autoImplicit false

inductive CompileFault where
  | noTarget
  | unknownTarget (name : String)
  | load (path : String) (fault : LoadFault)
  | badScope (bad : Listing.BadScope)
  | emit (target : String) (fault : EmitFault)
  deriving DecidableEq, Repr

namespace CompileFault

def message : CompileFault → String
  | .noTarget => "No target selected"
  | .unknownTarget name =>
    "Unknown target " ++ name ++ " (known targets: " ++
      ", ".intercalate (Target.all.map Target.name) ++ ")"
  | .load path _ => "Failed to load " ++ path
  | .badScope _ => "Failed to decode the nested scopes"
  | .emit target _ => "Failed to generate the " ++ target ++ " output"

/-- What caused a fault, the nearest cause first. -/
def causes : CompileFault → List String
  | .noTarget => []
  | .unknownTarget _ => []
  | .load _ fault => fault.message :: (fault.diskFault?.map DiskFault.message).toList
  | .badScope bad => [bad.message]
  | .emit _ fault => fault.message :: (fault.diskFault?.map DiskFault.message).toList

/-- A diagnostic that shows the row at fault, if a malformed listing is the cause. -/
def diagnostic? : CompileFault → Option Diagnostic
  | .load _ (.malformed path bad) =>
    let row := bad.text.toList
    some {
      severity := .error
      message := bad.fault.message
      span := (Span.ofLine path bad.line row 0 (Text.Utf8.size row)).toOption }
  | _ => none

end CompileFault

/-- A message followed by its causes. -/
def describe (message : String) (causes : List String) : String :=
  "Error: " ++ message ++ "\n" ++
    String.join (causes.map fun cause => "\nCaused by:\n    " ++ cause ++ "\n")

def CompileFault.describe (color : Bool) (fault : CompileFault) : String :=
  FormatCompiler.describe fault.message fault.causes ++
    match fault.diagnostic? with
    | some diagnostic => "\n" ++ diagnostic.print color
    | none => ""

def OpenQuote.describe (fault : OpenQuote) : String :=
  FormatCompiler.describe fault.message [cause]

structure Compilation where
  format : Format
  written : List String
  diagnostics : List Diagnostic

/-- The first of some names that is no target's. -/
def unknownTarget? (names : List String) : Option String :=
  names.find? fun name => (Target.ofName? name).isNone

/-- Loads a listing and looks at it for warnings. The targets are looked at first. -/
def prepare (disk : Disk) (path : String) (options : Options) :
    Except CompileFault (Format × List Diagnostic) :=
  if options.targets.isEmpty then .error .noTarget
  else
    match unknownTarget? options.targets with
    | some name => .error (.unknownTarget name)
    | none =>
      match Imports.load disk options.importPaths path with
      | .error fault => .error (.load path fault)
      | .ok format =>
        match Module.ofFormat format with
        | .error bad => .error (.badScope bad)
        | .ok module =>
          let source := (disk.read path).toOption.map fun content => (path, content)
          .ok (format, module.lint source)

/-- Writes the files of several targets, up to the first fault. -/
def emitAll (format : Format) (destination : Destination) (disk : Disk) :
    List String → Outcome CompileFault (List String)
  | [] => ⟨disk, .ok []⟩
  | target :: rest =>
    let first := format.emit target destination disk
    match first.result with
    | .error fault => ⟨first.disk, .error (.emit target fault)⟩
    | .ok paths =>
      let others := emitAll format destination first.disk rest
      ⟨others.disk, others.result.map (paths ++ ·)⟩

/-- Compiles the listing a path names. -/
def compile (disk : Disk) (path : String) (options : Options) : Outcome CompileFault Compilation :=
  match prepare disk path options with
  | .error fault => ⟨disk, .error fault⟩
  | .ok (format, diagnostics) =>
    let emitted := emitAll format options.destination disk options.targets
    ⟨emitted.disk, emitted.result.map fun written => { format, written, diagnostics }⟩

end FormatCompiler
