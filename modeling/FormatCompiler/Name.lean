/-!
Names of structures and enums. A name may be qualified: its segments stand between `::`, outermost
first. The path of a scope is such a name, and the empty path is the root's.
-/

namespace FormatCompiler.Name

set_option autoImplicit false

/-- Cuts a name at every `::`, from the left. The segment under way is held in reverse. -/
def cut (segment : List Char) : List Char → List (List Char)
  | ':' :: ':' :: rest => segment.reverse :: cut [] rest
  | c :: rest => cut (c :: segment) rest
  | [] => [segment.reverse]

/-- Cuts a name at its last `::`. -/
def cutLast : List Char → Option (List Char × List Char)
  | [] => none
  | c :: rest =>
    match cutLast rest with
    | some (outer, last) => some (c :: outer, last)
    | none => if c = ':' ∧ rest.head? = some ':' then some ([], rest.tail) else none

/-- The segments of a path. The root has none. -/
def segments (path : String) : List String :=
  if path.isEmpty then [] else (cut [] path.toList).map String.ofList

/-- The path of the enclosing scope; the root for a path of one segment, and for the root itself. -/
def enclosing (path : String) : String :=
  match cutLast path.toList with
  | some (outer, _) => String.ofList outer
  | none => ""

/-- A name without its qualification. -/
def short (name : String) : String :=
  match cutLast name.toList with
  | some (_, last) => String.ofList last
  | none => name

/-- What is left of `text` after `start`, if `text` begins with it. -/
def dropPrefix (start text : List Char) : Option (List Char) :=
  if start.isPrefixOf text then some (text.drop start.length) else none

/-- What is left of `text` before `tail`, if `text` ends with it. -/
def dropSuffix (tail text : List Char) : Option (List Char) :=
  if tail.isSuffixOf text then some (text.take (text.length - tail.length)) else none

/-- Whether a declared name is what a reference says, up to further qualification. -/
def refersTo (declared reference : String) : Bool :=
  declared == reference ||
    match dropSuffix reference.toList declared.toList with
    | some outer => [':', ':'].isSuffixOf outer
    | none => false

/-- A path seen from inside the root: a leading root name is dropped. -/
def relativeTo (root path : String) : Option String :=
  (dropPrefix (root.toList ++ [':', ':']) path.toList).map String.ofList

theorem cutLast_eq {path outer last : List Char} (found : cutLast path = some (outer, last)) :
    path = outer ++ ':' :: ':' :: last := by
  induction path generalizing outer last with
  | nil => simp [cutLast] at found
  | cons c rest ih =>
    rw [cutLast] at found
    split at found
    · next inner =>
      simp only [Option.some.injEq, Prod.mk.injEq] at found
      obtain ⟨rfl, rfl⟩ := found
      simp [ih inner]
    · split at found
      · next separator =>
        simp only [Option.some.injEq, Prod.mk.injEq] at found
        obtain ⟨rfl, rfl⟩ := found
        obtain ⟨rfl, second⟩ := separator
        cases rest with
        | nil => simp at second
        | cons d tail => simp_all
      · simp at found

/-- The scopes around a path, from itself out to the root. -/
def outward (path : List Char) : List String :=
  match _found : cutLast path with
  | some (outer, _) => String.ofList path :: outward outer
  | none => if path.isEmpty then [""] else [String.ofList path, ""]
termination_by path.length
decreasing_by
  have shape := cutLast_eq _found
  simp [shape]

end FormatCompiler.Name
