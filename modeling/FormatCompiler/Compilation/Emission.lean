import FormatCompiler.Disk.Basic
import FormatCompiler.Module.Subset
import FormatCompiler.Target.CppStl
import FormatCompiler.Target.Lua
import FormatCompiler.Target.Python
import FormatCompiler.Target.Ruby

/-!
The files that a target makes of a format, and writing them below an output directory.
-/

namespace FormatCompiler

set_option autoImplicit false

/-- Why no files are made, or why they are not all written. -/
inductive EmitFault where
  | unknownTarget (name : String)
  | badScope (bad : Listing.BadScope)
  | unsupported (cause : Unsupported)
  /-- The root is inside itself, so that its classes have no end. -/
  | endless
  | directory (path : String) (fault : DiskFault)
  | file (path : String) (fault : DiskFault)
  deriving DecidableEq, Repr

def EmitFault.message : EmitFault → String
  | .unknownTarget name => "unknown target: " ++ name
  | .badScope bad => bad.message
  | .unsupported cause => cause.message
  | .endless => "stack overflow"
  | .directory path _ => "failed to create output directory: " ++ path
  | .file path _ => "failed to write output file: " ++ path

/-- The fault of the disk behind a fault, if there is one. -/
def EmitFault.diskFault? : EmitFault → Option DiskFault
  | .directory _ fault => some fault
  | .file _ fault => some fault
  | _ => none

/-- The files that a target makes of a module; Python puts its own into a package. -/
def Target.artifacts (target : Target) (package : Option String) (module : Module) :
    List Artifact :=
  match target with
  | .cppStl => CppStl.artifacts module
  | .python => Python.artifacts module package
  | .ruby => Ruby.artifacts module
  | .lua => Lua.artifacts module
  | .wiresharkLua => Lua.dissectorArtifacts module

/-- The files that the target of a name makes of a format. The format need not keep the rules of
formats, but every scope has to be supported, and there has to be an end to them. -/
def Format.artifacts (format : Format) (targetName : String) (package : Option String) :
    Except EmitFault (List Artifact) :=
  match Target.ofName? targetName with
  | none => .error (.unknownTarget targetName)
  | some target =>
    match Module.ofFormat format with
    | .error bad => .error (.badScope bad)
    | .ok module =>
      match module.unsupported? with
      | some cause => .error (.unsupported cause)
      | none =>
        if module.isEndless then .error .endless else .ok (target.artifacts package module)

/-- Where files go. -/
structure Destination where
  directory : String
  package : Option String
  deriving DecidableEq, Repr

/-- Writes a file below a directory, and gives its path. Directories that are missing are made. -/
def Artifact.write (artifact : Artifact) (disk : Disk) (directory : String) :
    Outcome EmitFault String :=
  let path := Path.join directory artifact.path
  let around := (Path.parent path).getD directory
  let ready := disk.makeDirectories around
  match ready.result with
  | .error fault => ⟨ready.disk, .error (.directory around fault)⟩
  | .ok _ =>
    match ready.disk.write path (Text.Utf8.encode artifact.content.toList) with
    | .error fault => ⟨ready.disk, .error (.file path fault)⟩
    | .ok written => ⟨written, .ok path⟩

/-- Writes files one after the other, up to the first fault. -/
def writeArtifacts (disk : Disk) (directory : String) :
    List Artifact → Outcome EmitFault (List String)
  | [] => ⟨disk, .ok []⟩
  | artifact :: rest =>
    let first := artifact.write disk directory
    match first.result with
    | .error fault => ⟨first.disk, .error fault⟩
    | .ok path =>
      let others := writeArtifacts first.disk directory rest
      ⟨others.disk, others.result.map (path :: ·)⟩

/-- Makes and writes the files of a target. Nothing is written unless all of them are made. -/
def Format.emit (format : Format) (targetName : String) (destination : Destination) (disk : Disk) :
    Outcome EmitFault (List String) :=
  match format.artifacts targetName destination.package with
  | .error fault => ⟨disk, .error fault⟩
  | .ok artifacts => writeArtifacts disk destination.directory artifacts

end FormatCompiler
