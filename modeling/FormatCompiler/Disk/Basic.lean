import FormatCompiler.Disk.Path
import FormatCompiler.Text.Utf8

/-!
A tree of directories and files held in memory. There are no links, so a file has one place.
-/

namespace FormatCompiler

set_option autoImplicit false

/-- Where a file or a directory is: the names from the root down to it. -/
abbrev Place := List String

/-- The absolute path of a place. -/
def Place.path (place : Place) : String :=
  "/" ++ String.intercalate "/" place

inductive Entry where
  | directory
  | file (bytes : List UInt8)
  deriving DecidableEq, Repr

/-- What exists below the root, and the directory that relative paths start from. -/
@[ext]
structure Disk where
  here : Place
  entries : List (Place × Entry)
  /-- Why an entry is not taken at a place beside what is there, if it is not: a name may be too
  long, space or permission may be missing. -/
  refuses : List (Place × Entry) → Place → Entry → Option String := fun _ _ _ => none

/-- Why an operation on a path fails. -/
inductive DiskFault where
  | notFound
  | notDirectory
  | isDirectory
  | exists
  | notUtf8
  | refused (reason : String)
  deriving DecidableEq, Repr

def DiskFault.message : DiskFault → String
  | .notFound => "No such file or directory (os error 2)"
  | .notDirectory => "Not a directory (os error 20)"
  | .isDirectory => "Is a directory (os error 21)"
  | .exists => "File exists (os error 17)"
  | .notUtf8 => "stream did not contain valid UTF-8"
  | .refused reason => reason

/-- What a disk holds after an action, and how the action ended. -/
@[ext]
structure Outcome (ε α : Type) where
  disk : Disk
  result : Except ε α

namespace Disk

/-- What is at a place. The root is always there. -/
def entry? (disk : Disk) (place : Place) : Option Entry :=
  if place = [] then some .directory else disk.entries.lookup place

/-- Puts an entry at a place, in the place of what was there. -/
def put (disk : Disk) (place : Place) (entry : Entry) : Disk :=
  { disk with entries := (place, entry) :: disk.entries.filter (·.1 != place) }

/-- Why an entry is not taken at a place, if it is not. -/
def refusal? (disk : Disk) (place : Place) (entry : Entry) : Option String :=
  disk.refuses disk.entries place entry

/-- Puts an entry at a place if the disk takes it. -/
def offer (disk : Disk) (place : Place) (entry : Entry) : Except DiskFault Disk :=
  match disk.refusal? place entry with
  | some reason => .error (.refused reason)
  | none => .ok (disk.put place entry)

/-- Follows one piece of a path from a place, which has to be a directory. -/
def step (disk : Disk) (place : Place) (piece : String) : Except DiskFault Place :=
  match disk.entry? place with
  | none => .error .notFound
  | some (.file _) => .error .notDirectory
  | some .directory =>
    if piece = "" ∨ piece = "." then .ok place
    else if piece = ".." then .ok place.dropLast
    else if (disk.entry? (place ++ [piece])).isSome then .ok (place ++ [piece])
    else .error .notFound

def follow (disk : Disk) (place : Place) : List String → Except DiskFault Place
  | [] => .ok place
  | piece :: rest => do disk.follow (← disk.step place piece) rest

/-- Where the pieces of a path start from. -/
def origin (disk : Disk) (path : String) : Place :=
  if Path.isAbsolute path then [] else disk.here

/-- The place a path names, if something is there. -/
def locate (disk : Disk) (path : String) : Except DiskFault Place :=
  if path.isEmpty then .error .notFound else disk.follow (disk.origin path) (Path.pieces path)

def isFile (disk : Disk) (path : String) : Bool :=
  match disk.locate path with
  | .ok place =>
    match disk.entry? place with
    | some (.file _) => true
    | _ => false
  | .error _ => false

def isDirectory (disk : Disk) (path : String) : Bool :=
  match disk.locate path with
  | .ok place => disk.entry? place == some .directory
  | .error _ => false

/-- The text of the file at a place. -/
def readAt (disk : Disk) (place : Place) : Except DiskFault (List Char) :=
  match disk.entry? place with
  | none => .error .notFound
  | some .directory => .error .isDirectory
  | some (.file bytes) => (Text.Utf8.decode bytes).mapError fun _ => .notUtf8

/-- The text of the file a path names. -/
def read (disk : Disk) (path : String) : Except DiskFault (List Char) := do
  disk.readAt (← disk.locate path)

/-- The place a path would name if its last piece were there; the directory it lies in has to be. -/
def locateNew (disk : Disk) (path : String) : Except DiskFault (Place × String) :=
  match ((Path.pieces path).filter (· != "")).reverse with
  | [] => .error (if Path.isAbsolute path then .exists else .notFound)
  | last :: outer => do
    let place ← disk.follow (disk.origin path) outer.reverse
    match disk.entry? place with
    | some .directory => return (place, last)
    | some (.file _) => throw .notDirectory
    | none => throw .notFound

/-- Makes a directory where nothing is yet. -/
def makeDirectory (disk : Disk) (path : String) : Except DiskFault Disk := do
  let (place, last) ← disk.locateNew path
  if last = "." ∨ last = ".." ∨ (disk.entry? (place ++ [last])).isSome then throw .exists
  disk.offer (place ++ [last]) .directory

/-- Makes a directory. One that is already there is no fault. -/
def ensureDirectory (disk : Disk) (path : String) : Outcome DiskFault Unit :=
  match disk.makeDirectory path with
  | .ok made => ⟨made, .ok ()⟩
  | .error fault => ⟨disk, if disk.isDirectory path then .ok () else .error fault⟩

/-- Makes a directory and those around it that are missing, given from the inside out. What was made
before a fault stays. -/
def makeChain (disk : Disk) : List String → Outcome DiskFault Unit
  | [] => ⟨disk, .ok ()⟩
  | path :: outer =>
    if path.isEmpty then ⟨disk, .ok ()⟩
    else
      match disk.makeDirectory path with
      | .error .notFound =>
        let around := disk.makeChain outer
        match around.result with
        | .error _ => around
        | .ok _ => around.disk.ensureDirectory path
      | _ => disk.ensureDirectory path

def makeDirectories (disk : Disk) (path : String) : Outcome DiskFault Unit :=
  disk.makeChain (path :: Path.ancestors path)

/-- Writes a whole file, over what was there unless that is a directory. It is made beside its place
first, so it has to be taken in any case. -/
def write (disk : Disk) (path : String) (bytes : List UInt8) : Except DiskFault Disk := do
  let (place, last) ← disk.locateNew path
  let written ← disk.offer (place ++ [last]) (.file bytes)
  match disk.entry? (place ++ [last]) with
  | some .directory => throw .isDirectory
  | _ => return written

/-- The places of all files. -/
def files (disk : Disk) : List Place :=
  disk.entries.filterMap fun (place, entry) =>
    match entry with
    | .file _ => some place
    | .directory => none

end Disk

end FormatCompiler
