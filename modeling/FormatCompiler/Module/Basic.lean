import FormatCompiler.Format.Rules

/-!
A module is a format together with the formats its type declarations carry, its nested scopes. A
scope is known by its path below the root. Names of types and enums are looked up from a scope.
-/

namespace FormatCompiler

set_option autoImplicit false

/-- The root and its nested scopes, ordered by path, each path once. -/
structure Module where
  root : Format
  nested : List (String × Format)
  deriving DecidableEq, Repr

namespace Module

/-- Puts a scope where its path belongs, in the place of one with the same path. -/
def insert (path : String) (format : Format) : List (String × Format) → List (String × Format)
  | [] => [(path, format)]
  | (other, kept) :: rest =>
    if path < other then (path, format) :: (other, kept) :: rest
    else if path = other then (path, format) :: rest
    else (other, kept) :: insert path format rest

/-- The path of a declared scope: its name without a leading name of the root. -/
def pathOf (root : Format) (name : String) : String :=
  (Name.relativeTo root.name name).getD name

/-- Adds the scopes that some declarations carry. -/
def addScopes (root : Format) (nested : List (String × Format)) :
    List TypeDecl → Except Listing.BadScope (List (String × Format))
  | [] => .ok nested
  | decl :: rest =>
    match decl.type.payload? with
    | none => addScopes root nested rest
    | some payload => do
      let format ← Listing.unembed decl.name payload
      addScopes root (insert (pathOf root decl.name) format nested) rest

def ofFormat (root : Format) : Except Listing.BadScope Module := do
  return { root, nested := ← addScopes root [] root.types }

/-- The format of the scope at a path. -/
def format? (module : Module) (path : String) : Option Format :=
  if path.isEmpty then some module.root else module.nested.lookup path

def paths (module : Module) : List String :=
  module.nested.map Prod.fst

/-- The paths of the scopes directly inside one. -/
def children (module : Module) (path : String) : List String :=
  module.paths.filter fun inner => Name.enclosing inner == path

/-- The scope a type name means: the one at that path, the one at that path below the root's name,
or the first whose path ends with it. -/
def scopeNamed? (module : Module) (name : String) : Option String :=
  let isPath := fun path => module.paths.contains path
  if isPath name then some name
  else
    match (Name.relativeTo module.root.name name).filter isPath with
    | some path => some path
    | none => module.paths.find? fun path => Name.refersTo path name

/-- The enum a reference means at a path: the first of that short name, looking outward. -/
def enumOwner? (module : Module) (path reference : String) : Option (String × EnumDecl) :=
  (Name.outward path.toList).findSome? fun scope => do
    let format ← module.format? scope
    let decl ← format.enums.find? fun decl => Name.short decl.name == Name.short reference
    return (scope, decl)

/-- The first import that provides a structure. -/
def importFor? (module : Module) (name : String) : Option String :=
  (module.root.imports.map importStem).find? fun stem => Name.refersTo name stem

end Module

/-- A scope of a module, with what it needs to look up names. -/
structure Scope where
  module : Module
  path : String
  format : Format
  aliases : AliasTable
  deriving DecidableEq, Repr

/-- A structure, as seen by a field that has it for its type. -/
inductive Structure where
  /-- A nested scope of the module, by its path. -/
  | nested (path : String)
  /-- A structure defined outside the module. -/
  | external (name : String)
  deriving DecidableEq, Repr

namespace Module

def rootScope (module : Module) : Scope :=
  { module, path := "", format := module.root, aliases := .ofTypes module.root.types }

/-- The scope at a path. Inside a nested scope the aliases of the root are seen too, behind its
own. -/
def scope? (module : Module) (path : String) : Option Scope := do
  let format ← module.format? path
  if path.isEmpty then return module.rootScope
  return { module, path, format, aliases := .ofTypes (module.root.types ++ format.types) }

/-- The root, then the nested scopes by path. -/
def scopes (module : Module) : List Scope :=
  module.rootScope :: module.paths.filterMap module.scope?

/-- Whether a nested scope has the path of the root. The root is inside itself then, and there is no
end to going inward. -/
def isEndless (module : Module) : Bool :=
  module.paths.contains ""

/-- Combines what each scope yields with what the scopes inside it yield, down to `depth` levels
below the scope. -/
def foldFrom {α : Type} (combine : Scope → List α → α) (module : Module) :
    Nat → Scope → α
  | 0, scope => combine scope []
  | depth + 1, scope =>
    combine scope (((module.children scope.path).filterMap module.scope?).map
      (foldFrom combine module depth))

/-- Combines what each scope yields with what the scopes inside it yield, from the root down. No
chain of scopes one inside the other is longer than the number of nested scopes, unless the module
is endless: of that these are only the first levels, and no file is made of it. -/
def foldScopes {α : Type} (combine : Scope → List α → α) (module : Module) : α :=
  foldFrom combine module module.nested.length module.rootScope

end Module

namespace Scope

def isRoot (scope : Scope) : Bool :=
  scope.path.isEmpty

/-- The name of the structure of a scope. -/
def name (scope : Scope) : String :=
  if scope.isRoot then scope.module.root.name else Name.short scope.path

def primitive? (scope : Scope) (type : TypeRef) : Option Primitive :=
  scope.aliases.primitive? type

/-- The structure a type means, if it stands for no primitive. -/
def structure? (scope : Scope) (type : TypeRef) : Option Structure :=
  match scope.aliases.resolve type with
  | .primitive _ => none
  | .opaqueName name =>
    match scope.module.scopeNamed? name with
    | some path => some (.nested path)
    | none => some (.external name)

/-- The structure a field is read as. A switch is never one. -/
def fieldStructure? (scope : Scope) (field : Field) : Option Structure :=
  if field.switchOn.isSome then none else scope.structure? field.type

/-- The wider of a type and a later one; the earlier wins a tie. -/
def wider (first second : Primitive) : Primitive :=
  if first.rank < second.rank then second else first

/-- The widest type of some cases, if all of them are primitive. -/
def widestCase? (scope : Scope) : List SwitchCase → Option Primitive
  | [] => none
  | case :: rest => do
    let types ← rest.mapM fun case => scope.primitive? case.type
    return types.foldl wider (← scope.primitive? case.type)

/-- The primitive a field is stored as: for a switch, that of the widest case. -/
def fieldPrimitive? (scope : Scope) (field : Field) : Option Primitive :=
  if field.switchOn.isNone || field.cases.isEmpty then scope.primitive? field.type
  else scope.widestCase? field.cases

/-- The primitive of a type that has to be one. -/
def primitive (scope : Scope) (type : TypeRef) : Primitive :=
  (scope.primitive? type).getD .u1

/-- Whether a name is a field or an instance. -/
def isMember (scope : Scope) (name : String) : Bool :=
  (scope.format.field? name).isSome || (scope.format.instance? name).isSome

def enumOwner? (scope : Scope) (reference : String) : Option (String × EnumDecl) :=
  scope.module.enumOwner? scope.path reference

/-- The position of a field in the sequence, counted from zero. -/
def fieldIndex? (scope : Scope) (id : String) : Option Nat :=
  scope.format.fields.findIdx? fun field => field.id == id

/-- The byte order of a read that may name one. -/
def orderOf (scope : Scope) (order : Option ByteOrder) : ByteOrder :=
  order.getD scope.format.order

/-- The value a field has to have, if a validation says just that. -/
def expectedLiteral? (scope : Scope) (validation : Validation) : Option Int64 :=
  if (scope.format.field? validation.target).isNone then none
  else
    match validation.condition with
    | .binary "==" (.name id) (.int value) => if id = validation.target then some value else none
    | .binary "==" (.int value) (.name id) => if id = validation.target then some value else none
    | _ => none

end Scope

/-- Whether the cases of a switch, but for the fallback, are integer literals. -/
def Field.hasLiteralCases (field : Field) : Bool :=
  field.cases.all fun case =>
    match case.value with
    | none => true
    | some (.int _) => true
    | some _ => false

end FormatCompiler
