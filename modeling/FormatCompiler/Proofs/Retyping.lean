import FormatCompiler.Module.Read
import FormatCompiler.Module.Subset

/-!
Scopes with other declarations of types, by which every type means the same. Whatever is looked up
from such a scope is the same. What a scope yields without looking at declarations itself, it yields
with the other ones.
-/

namespace FormatCompiler

set_option autoImplicit false

/-- A module with other types declared in its root, but the same nested scopes. -/
def Module.retyped (module : Module) (types : List TypeDecl) : Module :=
  { module with root := { module.root with types } }

namespace Scope

/-- Other declarations for a scope and its root. Every type means the same by them. -/
structure Retyping (scope : Scope) where
  root : List TypeDecl
  own : List TypeDecl
  aliases : AliasTable
  resolve_eq : aliases.resolve = scope.aliases.resolve

def retyped (scope : Scope) (change : scope.Retyping) : Scope where
  module := scope.module.retyped change.root
  path := scope.path
  format := { scope.format with types := change.own }
  aliases := change.aliases

variable (scope : Scope) (change : scope.Retyping)

/-! ### Lookups -/

theorem resolve_retyped (type : TypeRef) :
    (scope.retyped change).aliases.resolve type = scope.aliases.resolve type :=
  congrFun change.resolve_eq type

@[simp] theorem primitive?_retyped : (scope.retyped change).primitive? = scope.primitive? := by
  funext type
  rw [primitive?, AliasTable.primitive?, resolve_retyped]
  rfl

@[simp] theorem structure?_retyped : (scope.retyped change).structure? = scope.structure? := by
  funext type
  rw [structure?, resolve_retyped]
  rfl

/-- The enums of a scope are found whatever types it declares. -/
@[simp] theorem enumOwner?_retyped : (scope.retyped change).enumOwner? = scope.enumOwner? := by
  funext reference
  unfold enumOwner? Module.enumOwner?
  congr 1
  funext path
  unfold Module.format?
  split <;> rfl

@[simp] theorem fieldStructure?_retyped :
    (scope.retyped change).fieldStructure? = scope.fieldStructure? := by
  funext field
  simp only [fieldStructure?, structure?_retyped]

@[simp] theorem fieldPrimitive?_retyped :
    (scope.retyped change).fieldPrimitive? = scope.fieldPrimitive? := by
  funext field
  unfold fieldPrimitive?
  cases field.cases <;> simp only [widestCase?, primitive?_retyped]

@[simp] theorem primitive_retyped : (scope.retyped change).primitive = scope.primitive := by
  funext type
  simp only [primitive, primitive?_retyped]

/-! ### Reads -/

@[simp] theorem primitiveRead_retyped :
    (scope.retyped change).primitiveRead = scope.primitiveRead := by
  funext field type
  simp only [primitiveRead, primitive_retyped]
  rfl

@[simp] theorem read_retyped : (scope.retyped change).read = scope.read := by
  funext field type
  simp only [read, structure?_retyped, primitiveRead_retyped]

@[simp] theorem ruleRead_retyped : (scope.retyped change).ruleRead = scope.ruleRead := by
  funext rule
  simp only [ruleRead, structure?_retyped, primitive_retyped]
  rfl

@[simp] theorem externals_retyped : (scope.retyped change).externals = scope.externals := by
  simp only [externals, structure?_retyped, fieldStructure?_retyped]
  rfl

end Scope

namespace Subset

variable (scope : Scope) (change : scope.Retyping)

@[simp] theorem rejectField_retyped : rejectField (scope.retyped change) = rejectField scope := by
  funext field
  simp only [rejectField, Scope.fieldStructure?_retyped, Scope.primitive?_retyped,
    Scope.fieldPrimitive?_retyped, Scope.enumOwner?_retyped]

@[simp] theorem rejectInstances_retyped (known : List String) (instances : List Instance) :
    rejectInstances (scope.retyped change) known instances =
      rejectInstances scope known instances := by
  induction instances generalizing known with
  | nil => rfl
  | cons inst rest ih =>
    rw [rejectInstances, rejectInstances, ih]
    cases inst.body <;> simp only [rejectBody, Scope.structure?_retyped]

@[simp] theorem rejectScope_retyped : rejectScope (scope.retyped change) = rejectScope scope := by
  simp only [rejectScope, rejectField_retyped, rejectInstances_retyped]
  rfl

end Subset

/-! ### Whole modules -/

namespace Module

/-- By other declarations in the root every type means the same, in the root and behind the
declarations of an inner scope. -/
def SameMeaning (module : Module) (types : List TypeDecl) : Prop :=
  ∀ own, (AliasTable.ofTypes (types ++ own)).resolve =
    (AliasTable.ofTypes (module.root.types ++ own)).resolve

variable {α : Type} {module : Module} {types : List TypeDecl}

theorem rootScope_retyped (same : module.SameMeaning types) :
    ∃ change, (module.retyped types).rootScope = module.rootScope.retyped change := by
  have resolve : (AliasTable.ofTypes types).resolve =
      (AliasTable.ofTypes module.root.types).resolve := by
    simpa using same []
  exact ⟨⟨types, types, .ofTypes types, resolve⟩, rfl⟩

section Views

variable {view other : Scope → α}

theorem map_scope?_retyped (same : module.SameMeaning types)
    (agree : ∀ (scope : Scope) (change : scope.Retyping), view (scope.retyped change) = other scope)
    (path : String) :
    ((module.retyped types).scope? path).map view = (module.scope? path).map other := by
  unfold Module.scope? Module.format?
  by_cases root : path.isEmpty
  · obtain ⟨change, found⟩ := rootScope_retyped same
    simp only [root]
    change some (view (module.retyped types).rootScope) = some (other module.rootScope)
    rw [found, agree]
  · simp only [root]
    change ((module.nested.lookup path).bind _).map _ = ((module.nested.lookup path).bind _).map _
    cases module.nested.lookup path with
    | none => rfl
    | some format =>
      let scope : Scope :=
        { module, path, format, aliases := .ofTypes (module.root.types ++ format.types) }
      exact congrArg some (agree scope ⟨types, format.types, _, same format.types⟩)

theorem map_filterMap_scope?_retyped (same : module.SameMeaning types)
    (agree : ∀ (scope : Scope) (change : scope.Retyping), view (scope.retyped change) = other scope)
    (paths : List String) :
    (paths.filterMap (module.retyped types).scope?).map view =
      (paths.filterMap module.scope?).map other := by
  rw [List.map_filterMap, List.map_filterMap]
  exact congrArg (List.filterMap · paths) (funext (map_scope?_retyped same agree))

theorem map_scopes_retyped (same : module.SameMeaning types)
    (agree : ∀ (scope : Scope) (change : scope.Retyping),
      view (scope.retyped change) = other scope) :
    (module.retyped types).scopes.map view = module.scopes.map other := by
  obtain ⟨change, found⟩ := rootScope_retyped same
  rw [scopes, List.map_cons, found, agree, map_filterMap_scope?_retyped same agree]
  rfl

end Views

theorem any_scopes_retyped (same : module.SameMeaning types) {test : Scope → Bool}
    (blind : ∀ (scope : Scope) (change : scope.Retyping),
      test (scope.retyped change) = test scope) :
    (module.retyped types).scopes.any test = module.scopes.any test := by
  have mapped : ∀ scopes : List Scope, scopes.any test = (scopes.map test).any id := by simp
  rw [mapped, mapped, map_scopes_retyped same blind]

theorem unsupported?_retyped (same : module.SameMeaning types) :
    (module.retyped types).unsupported? = module.unsupported? := by
  have mapped : ∀ scopes : List Scope,
      scopes.findSome? Subset.rejectScope = (scopes.map Subset.rejectScope).findSome? id := by
    simp [List.findSome?_map]
  rw [unsupported?, unsupported?, mapped, mapped,
    map_scopes_retyped same Subset.rejectScope_retyped]

theorem imported_retyped (same : module.SameMeaning types) :
    (module.retyped types).imported = module.imported := by
  have mapped : ∀ scopes : List Scope,
      scopes.flatMap Scope.externals = (scopes.map Scope.externals).flatten := by
    simp [List.flatMap]
  unfold imported
  simp only [mapped, map_scopes_retyped same Scope.externals_retyped]
  rfl

section Folds

variable {combine : Scope → List α → α}

theorem foldFrom_retyped (same : module.SameMeaning types)
    (blind : ∀ (scope : Scope) (change : scope.Retyping),
      combine (scope.retyped change) = combine scope)
    (depth : Nat) (scope : Scope) (change : scope.Retyping) :
    foldFrom combine (module.retyped types) depth (scope.retyped change) =
      foldFrom combine module depth scope := by
  induction depth generalizing scope with
  | zero => rw [foldFrom, foldFrom, blind]
  | succ depth ih =>
    rw [foldFrom, foldFrom, blind, map_filterMap_scope?_retyped same ih]
    rfl

theorem foldScopes_retyped (same : module.SameMeaning types)
    (blind : ∀ (scope : Scope) (change : scope.Retyping),
      combine (scope.retyped change) = combine scope) :
    foldScopes combine (module.retyped types) = foldScopes combine module := by
  obtain ⟨change, found⟩ := rootScope_retyped same
  rw [foldScopes, found]
  exact foldFrom_retyped same blind module.nested.length module.rootScope change

end Folds

end Module

end FormatCompiler
