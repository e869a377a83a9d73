import FormatCompiler.Disk.Basic
import FormatCompiler.Format.Rules

/-!
Finding the file an import means, and reading it.
-/

namespace FormatCompiler

set_option autoImplicit false

/-- What a symbol shared by several files is. -/
inductive SymbolKind where
  | type
  | enum
  deriving DecidableEq, Repr

def SymbolKind.word : SymbolKind → String
  | .type => "type"
  | .enum => "enum"

/-- Why a listing cannot be loaded from a disk. -/
inductive LoadFault where
  | unreadable (path : String) (fault : DiskFault)
  | malformed (path : String) (bad : Listing.Malformed)
  | unresolved (name : String) (importing : String)
  /-- The files from the root on, up to the one that is met again. -/
  | cycle (chain : List Place)
  /-- A file is asked for that was not loaded. -/
  | unloaded (place : Place)
  | duplicate (kind : SymbolKind) (name : String)
  | invalid (violation : Violation)
  deriving DecidableEq, Repr

def LoadFault.message : LoadFault → String
  | .unreadable path _ => "failed to open IR file: " ++ path
  | .malformed path bad => path ++ ": " ++ bad.message
  | .unresolved name importing => "failed to resolve import: " ++ name ++ " from " ++ importing
  | .cycle chain => "import cycle detected: " ++ " -> ".intercalate (chain.map Place.path)
  | .unloaded _ => "no entry found for key"
  | .duplicate kind name => "duplicate symbol across imports: " ++ kind.word ++ " " ++ name
  | .invalid violation => violation.message

/-- The fault of the disk behind a fault, if there is one. -/
def LoadFault.diskFault? : LoadFault → Option DiskFault
  | .unreadable _ fault => some fault
  | _ => none

namespace Imports

/-- An import as a path: it may be written with backslashes. -/
def asPath (name : String) : String :=
  String.ofList (name.toList.map fun c => if c = '\\' then '/' else c)

/-- Where an import may be found: beside the importing file first, then below each search root. An
empty root does not count, and an absolute path is only looked for where it says. -/
def candidates (roots : List String) (importing name : String) : List String :=
  let path := asPath name
  if Path.isAbsolute path then [path]
  else
    Path.join ((Path.parent importing).getD "") path ::
      (roots.filter fun root => !root.isEmpty).map fun root => Path.join root path

/-- The place of the file a path names. -/
def fileAt? (disk : Disk) (path : String) : Option Place :=
  if disk.isFile path then (disk.locate path).toOption else none

/-- The first of the candidates for an import that is a file. -/
def resolve (disk : Disk) (roots : List String) (importing name : String) :
    Except LoadFault Place :=
  match (candidates roots importing name).findSome? (fileAt? disk) with
  | some place => .ok place
  | none => .error (.unresolved name importing)

/-- The format of a listing whose text was looked for under a path. -/
def parse (path : String) (text : Except DiskFault (List Char)) : Except LoadFault Format := do
  let text ← text.mapError (.unreadable path)
  (Listing.read text).mapError (.malformed path)

def readAt (disk : Disk) (place : Place) : Except LoadFault Format :=
  parse place.path (disk.readAt place)

end Imports

end FormatCompiler
