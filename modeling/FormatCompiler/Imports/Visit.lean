import FormatCompiler.Imports.Resolve

/-!
The files that a listing needs: those it imports, those they import, and so on. They are visited
depth first, and each is loaded once its own imports are.
-/

namespace FormatCompiler.Imports

set_option autoImplicit false

structure LoadedFile where
  place : Place
  format : Format
  /-- Where its imports are, in the order it names them. -/
  imports : List Place
  deriving DecidableEq, Repr

/-- The places that are not a given one. -/
def others (place : Place) (places : List Place) : List Place :=
  places.filter (· != place)

theorem others_length {place : Place} {places : List Place} (member : place ∈ places) :
    (others place places).length < places.length := by
  apply List.length_filter_lt_length_iff_exists.mpr
  exact ⟨place, member, by simp⟩

mutual

/-- Loads a file and what it needs after the files `loaded`. The stack holds the files that the
visit is inside of, outermost first, and `free` the files that it is not inside of: a file that can
be read but is not free closes a cycle. -/
def visit (disk : Disk) (roots : List String) (free stack : List Place) (loaded : List LoadedFile)
    (place : Place) : Except LoadFault (List LoadedFile) :=
  if loaded.any (·.place == place) then .ok loaded
  else
    match readAt disk place with
    | .error fault => .error fault
    | .ok format =>
      if _member : place ∈ free then
        match visitAll disk roots (others place free) (stack ++ [place]) loaded place
            format.imports with
        | .error fault => .error fault
        | .ok (before, imports) => .ok (before ++ [{ place, format, imports }])
      else .error (.cycle (stack ++ [place]))
termination_by (free.length, 0)
decreasing_by
  exact Prod.Lex.left _ _ (others_length _member)

/-- Loads the imports of a file, and gives their places. -/
def visitAll (disk : Disk) (roots : List String) (free stack : List Place)
    (loaded : List LoadedFile) (importing : Place) :
    List String → Except LoadFault (List LoadedFile × List Place)
  | [] => .ok (loaded, [])
  | name :: rest =>
    match resolve disk roots importing.path name with
    | .error fault => .error fault
    | .ok place =>
      match visit disk roots free stack loaded place with
      | .error fault => .error fault
      | .ok next =>
        match visitAll disk roots free stack next importing rest with
        | .error fault => .error fault
        | .ok (all, places) => .ok (all, place :: places)
termination_by names => (free.length, names.length + 1)
decreasing_by
  · exact Prod.Lex.right _ (by simp)
  · exact Prod.Lex.right _ (by simp)

end

/-- A file and the files it needs, each behind those that it needs itself. -/
structure Closure where
  root : LoadedFile
  needed : List LoadedFile
  deriving DecidableEq, Repr

def closure (disk : Disk) (roots : List String) (place : Place) : Except LoadFault Closure := do
  let format ← readAt disk place
  let (needed, imports) ←
    visitAll disk roots (others place disk.files) [place] [] place format.imports
  return { root := { place, format, imports }, needed }

end FormatCompiler.Imports
