import FormatCompiler.Imports.Visit

/-!
Loading a listing. The types and enums of the files it needs are added to its own, those of a file
behind those of its imports, and only the result has to keep the rules of formats.
-/

namespace FormatCompiler.Imports

set_option autoImplicit false

/-- The symbols a format declares as types. Its own name is one of them. -/
def typeSymbols (format : Format) : List String :=
  format.name :: format.types.map TypeDecl.name

def enumSymbols (format : Format) : List String :=
  format.enums.map EnumDecl.name

/-- Declares symbols one after the other. None may be declared already. -/
def declare (kind : SymbolKind) (declared : List String) :
    List String → Except LoadFault (List String)
  | [] => .ok declared
  | name :: rest =>
    if name ∈ declared then .error (.duplicate kind name)
    else declare kind (name :: declared) rest

/-- A format that declarations are added to, with the symbols declared so far. -/
structure Merged where
  format : Format
  types : List String
  enums : List String
  deriving DecidableEq, Repr

def Merged.ofFormat (format : Format) : Merged where
  format := format
  types := typeSymbols format
  enums := enumSymbols format

/-- Adds the types and the enums of a format. -/
def Merged.add (merged : Merged) (format : Format) : Except LoadFault Merged := do
  let types ← declare .type merged.types (typeSymbols format)
  let enums ← declare .enum merged.enums (enumSymbols format)
  let whole := { merged.format with
    types := merged.format.types ++ format.types
    enums := merged.format.enums ++ format.enums }
  return { format := whole, types, enums }

/-- What was loaded from a place. -/
def Closure.file? (files : Closure) (place : Place) : Option LoadedFile :=
  (files.root :: files.needed).find? (·.place == place)

/-- The files that are not at one of the visited places. -/
def Closure.unvisited (files : Closure) (visited : List Place) : List LoadedFile :=
  (files.root :: files.needed).filter fun file => !visited.contains file.place

theorem Closure.unvisited_length {files : Closure} {file : LoadedFile} {place : Place}
    {visited : List Place} (found : files.file? place = some file) (new : place ∉ visited)
    (inner : List Place) :
    (files.unvisited (place :: inner ++ visited)).length < (files.unvisited visited).length := by
  have same : file.place = place := by simpa using List.find?_some found
  have kept : files.unvisited (place :: inner ++ visited) =
      (files.unvisited visited).filter fun file =>
        !(place :: inner ++ visited).contains file.place := by
    unfold unvisited
    rw [List.filter_filter]
    apply List.filter_congr
    intro other _
    by_cases visits : other.place ∈ visited <;> simp [visits]
  rw [kept]
  refine List.length_filter_lt_length_iff_exists.mpr ⟨file, ?_, by simp [same]⟩
  exact List.mem_filter.mpr ⟨List.mem_of_find?_eq_some found, by simpa [same] using new⟩

/-- Adds the files at some places, each behind those that it imports. A place that is visited is not
come to again. The places that are visited besides are given with the result, the last one first. -/
def mergeImports (files : Closure) (visited : List Place) (merged : Merged) :
    List Place → Except LoadFault (List Place × Merged)
  | [] => .ok ([], merged)
  | place :: rest =>
    if _met : place ∈ visited then mergeImports files visited merged rest
    else
      match _found : files.file? place with
      | none => .error (.unloaded place)
      | some file =>
        match mergeImports files (place :: visited) merged file.imports with
        | .error fault => .error fault
        | .ok (inner, before) =>
          match before.add file.format with
          | .error fault => .error fault
          | .ok next =>
            match mergeImports files (place :: inner ++ visited) next rest with
            | .error fault => .error fault
            | .ok (later, all) => .ok (later ++ place :: inner, all)
termination_by places => ((files.unvisited visited).length, places.length)
decreasing_by
  · exact Prod.Lex.right _ (by simp)
  · exact Prod.Lex.left _ _ (files.unvisited_length _found _met [])
  · exact Prod.Lex.left _ _ (files.unvisited_length _found _met inner)

/-- The root with the declarations of all that it needs. -/
def Closure.merge (files : Closure) : Except LoadFault Format :=
  match files.file? files.root.place with
  | none => .error (.unloaded files.root.place)
  | some root => do
    let (_, merged) ← mergeImports files [] (.ofFormat root.format) root.imports
    return merged.format

/-- A format that keeps the rules. -/
def checked (format : Format) : Except LoadFault Format :=
  match format.violation? with
  | none => .ok format
  | some violation => .error (.invalid violation)

/-- Loads the listing a path names, without looking at its imports. -/
def loadFile (disk : Disk) (path : String) : Except LoadFault Format := do
  checked (← parse path (disk.read path))

/-- Loads the listing a path names, with the declarations of all it needs. -/
def load (disk : Disk) (roots : List String) (path : String) : Except LoadFault Format := do
  let place ← (disk.locate path).mapError (.unreadable path)
  let files ← closure disk roots place
  checked (← files.merge)

end FormatCompiler.Imports
