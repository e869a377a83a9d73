import FormatCompiler.Listing.Embedded

/-!
Type names that stand for other types. A declaration that carries a format of its own is no alias.
-/

namespace FormatCompiler

set_option autoImplicit false

/-- What a type is once its aliases are followed. -/
inductive Resolved where
  | primitive (type : Primitive)
  /-- A name that is no alias, or one met a second time. -/
  | opaqueName (name : String)
  deriving DecidableEq, Repr

/-- The declarations that aliases are looked up in, the last one first. -/
structure AliasTable where
  decls : List TypeDecl
  deriving DecidableEq, Repr

namespace AliasTable

/-- Of two declarations with one name the later counts. -/
def ofTypes (types : List TypeDecl) : AliasTable :=
  ⟨(types.filter fun decl => decl.type.payload?.isNone).reverse⟩

def contains (table : AliasTable) (name : String) : Bool :=
  table.decls.any fun decl => decl.name == name

/-- The declarations of other names. -/
def without (name : String) (decls : List TypeDecl) : List TypeDecl :=
  decls.filter fun decl => decl.name != name

theorem without_length {name : String} {decls : List TypeDecl} {decl : TypeDecl}
    (found : decls.find? (fun decl => decl.name == name) = some decl) :
    (without name decls).length < decls.length := by
  refine List.length_filter_lt_length_iff_exists.mpr ⟨decl, List.mem_of_find?_eq_some found, ?_⟩
  have same := List.find?_some found
  simpa using same

/-- Follows a name. A declaration is used once: a name that comes back is left as it is. -/
def follow (decls : List TypeDecl) (name : String) : Resolved :=
  match _found : decls.find? fun decl => decl.name == name with
  | none => .opaqueName name
  | some decl =>
    match decl.type with
    | .primitive type => .primitive type
    | .named next => follow (without name decls) next
termination_by decls.length
decreasing_by exact without_length _found

def resolve (table : AliasTable) : TypeRef → Resolved
  | .primitive type => .primitive type
  | .named name => follow table.decls name

/-- The primitive a type stands for. -/
def primitive? (table : AliasTable) (type : TypeRef) : Option Primitive :=
  match table.resolve type with
  | .primitive type => some type
  | .opaqueName _ => none

end AliasTable

end FormatCompiler
