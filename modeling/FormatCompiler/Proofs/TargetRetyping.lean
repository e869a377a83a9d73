import FormatCompiler.Compilation.Emission
import FormatCompiler.Proofs.CompilationFailure
import FormatCompiler.Proofs.TypeOrder

/-!
What the targets write for a scope with other declarations of types, by which every type means the
same. They look types up and never at the declarations, so they write the same.
-/

namespace FormatCompiler.Target

set_option autoImplicit false

variable (scope : Scope) (change : scope.Retyping)

theorem enumPath_retyped : (scope.retyped change).enumPath = scope.enumPath := by
  funext separator enumTitle reference
  simp only [Scope.enumPath, Scope.enumOwner?_retyped]
  rfl

namespace Python

@[simp] theorem dialect_retyped : dialect (scope.retyped change) = dialect scope := by
  simp only [dialect, enumPath_retyped]
  rfl

@[simp] theorem fieldRead_retyped : fieldRead (scope.retyped change) = fieldRead scope := by
  funext field
  simp only [fieldRead, fieldTemplate, fieldBody, store, arms, otherwise, dialect_retyped,
    Scope.read_retyped]

theorem classCode_retyped : classCode (scope.retyped change) = classCode scope := by
  funext nested
  unfold classCode check fetchField fetchInstance instanceProperty instanceTemplate instanceBody
  simp only [fieldRead_retyped, dialect_retyped, Scope.fieldStructure?_retyped,
    Scope.structure?_retyped, Scope.ruleRead_retyped]
  rfl

end Python

namespace Ruby

@[simp] theorem dialect_retyped : dialect (scope.retyped change) = dialect scope := by
  simp only [dialect, enumPath_retyped]
  rfl

@[simp] theorem fieldRead_retyped : fieldRead (scope.retyped change) = fieldRead scope := by
  unfold fieldRead fieldTemplate fieldBody store arms arm
  simp only [dialect_retyped, Scope.read_retyped]

theorem classCode_retyped : classCode (scope.retyped change) = classCode scope := by
  funext nested
  unfold classCode check instanceMethod instanceTemplate instanceBody
  simp only [fieldRead_retyped, dialect_retyped, Scope.ruleRead_retyped]
  rfl

end Ruby

namespace Lua

@[simp] theorem dialect_retyped : dialect (scope.retyped change) = dialect scope := by
  simp only [dialect, enumPath_retyped]
  rfl

@[simp] theorem fieldTemplate_retyped :
    fieldTemplate (scope.retyped change) = fieldTemplate scope := by
  unfold fieldTemplate fieldBody store arms otherwise
  simp only [dialect_retyped, Scope.read_retyped]
  rfl

theorem classCode_retyped : classCode (scope.retyped change) = classCode scope := by
  funext nested
  unfold classCode classTemplate classHead check instanceTemplate
  simp only [fieldTemplate_retyped, dialect_retyped, Scope.ruleRead_retyped]
  rfl

theorem needsDecoder_retyped : needsDecoder (scope.retyped change) = needsDecoder scope := by
  simp only [needsDecoder, isSizedText, Scope.primitive?_retyped]
  rfl

end Lua

namespace CppStl

@[simp] theorem enumType_retyped : enumType (scope.retyped change) = enumType scope := by
  funext reference full
  simp only [enumType, Scope.enumOwner?_retyped]
  rfl

@[simp] theorem dialect_retyped : dialect (scope.retyped change) = dialect scope := by
  simp only [dialect, enumType_retyped]
  rfl

@[simp] theorem baseType_retyped : baseType (scope.retyped change) = baseType scope := by
  funext field full
  simp only [baseType, enumType_retyped, Scope.fieldStructure?_retyped,
    Scope.fieldPrimitive?_retyped]
  rfl

@[simp] theorem elementType_retyped : elementType (scope.retyped change) = elementType scope := by
  funext field
  simp only [elementType, baseType_retyped, Scope.fieldStructure?_retyped]
  rfl

@[simp] theorem instanceType_retyped :
    instanceType (scope.retyped change) = instanceType scope := by
  funext inst full
  simp only [instanceType, Scope.structure?_retyped, Scope.primitive_retyped]
  rfl

@[simp] theorem caseRead_retyped : caseRead (scope.retyped change) = caseRead scope := by
  unfold caseRead
  simp only [Scope.primitiveRead_retyped]

@[simp] theorem fieldValue_retyped : fieldValue (scope.retyped change) = fieldValue scope := by
  unfold fieldValue switchValue
  simp only [dialect_retyped, baseType_retyped, caseRead_retyped, Scope.read_retyped]
  rfl

@[simp] theorem fieldRead_retyped : fieldRead (scope.retyped change) = fieldRead scope := by
  unfold fieldRead fieldTemplate fieldBody singleRead switchArm
  simp only [dialect_retyped, elementType_retyped, caseRead_retyped, fieldValue_retyped]
  rfl

/-- The scopes inside one are announced by their names. -/
theorem forward_retyped :
    ((inner (scope.retyped change)).map fun child => "class " ++ className child ++ ";") =
      (inner scope).map fun child => "class " ++ className child ++ ";" := by
  have titles : ∀ path, ((scope.module.retyped change.root).scope? path).map className =
      (scope.module.scope? path).map className := by
    intro path
    unfold Module.scope? Module.format?
    by_cases root : path.isEmpty
    · simp only [root]
      rfl
    · simp only [root]
      change ((scope.module.nested.lookup path).bind _).map _ =
        ((scope.module.nested.lookup path).bind _).map _
      cases scope.module.nested.lookup path <;> rfl
  unfold inner
  rw [List.map_filterMap, List.map_filterMap]
  apply congrArg (List.filterMap · _)
  funext path
  have announced := congrArg (Option.map fun title => "class " ++ title ++ ";") (titles path)
  rw [Option.map_map, Option.map_map] at announced
  exact announced

theorem classDecl_retyped : classDecl (scope.retyped change) = classDecl scope := by
  funext nested
  unfold classDecl accessors members ownsPointer storageType accessorType
  simp only [forward_retyped, baseType_retyped, elementType_retyped, instanceType_retyped,
    Scope.fieldStructure?_retyped]
  rfl

theorem classDefs_retyped : classDefs (scope.retyped change) = classDefs scope := by
  funext nested
  unfold classDefs check checkedType instanceMethod instanceTemplate instanceBody initials
    ownsPointer ownsInstance storageType accessorType
  simp only [fieldRead_retyped, dialect_retyped, baseType_retyped, elementType_retyped,
    instanceType_retyped, Scope.fieldStructure?_retyped, Scope.structure?_retyped,
    Scope.ruleRead_retyped]
  rfl

end CppStl

section Files

variable {module : Module} {types : List TypeDecl}

theorem any_enums_retyped (same : module.SameMeaning types) :
    ((module.retyped types).scopes.any fun scope => !scope.format.enums.isEmpty) =
      module.scopes.any fun scope => !scope.format.enums.isEmpty :=
  Module.any_scopes_retyped same fun _ _ => rfl

theorem Python.file_retyped (same : module.SameMeaning types) :
    Python.file (module.retyped types) = Python.file module := by
  have checks : ∀ literal, Python.hasCheck (module.retyped types) literal =
      Python.hasCheck module literal := fun literal => Module.any_scopes_retyped same fun _ _ => rfl
  simp only [Python.file, checks, any_enums_retyped same, Module.imported_retyped same,
    Module.foldScopes_retyped same Python.classCode_retyped]

theorem Ruby.file_retyped (same : module.SameMeaning types) :
    Ruby.file (module.retyped types) = Ruby.file module := by
  simp only [Ruby.file, Module.importedStems, Module.imported_retyped same,
    Module.foldScopes_retyped same Ruby.classCode_retyped]

theorem Lua.file_retyped (same : module.SameMeaning types) :
    Lua.file (module.retyped types) = Lua.file module := by
  simp only [Lua.file, Lua.requires, any_enums_retyped same,
    Module.any_scopes_retyped same Lua.needsDecoder_retyped, Module.importedStems,
    Module.imported_retyped same, Module.foldScopes_retyped same Lua.classCode_retyped]

theorem CppStl.header_retyped (same : module.SameMeaning types) :
    CppStl.header (module.retyped types) = CppStl.header module := by
  have repeats : ((module.retyped types).scopes.any fun scope =>
      scope.format.fields.any fun field => field.repetition != .once) =
        module.scopes.any fun scope =>
          scope.format.fields.any fun field => field.repetition != .once :=
    Module.any_scopes_retyped same fun _ _ => rfl
  simp only [CppStl.header, repeats, any_enums_retyped same, Module.importedStems,
    Module.imported_retyped same, Module.foldScopes_retyped same CppStl.classDecl_retyped]
  rfl

theorem CppStl.source_retyped (same : module.SameMeaning types) :
    CppStl.source (module.retyped types) = CppStl.source module := by
  have checks : ((module.retyped types).scopes.any fun scope =>
      !scope.format.validations.isEmpty) =
        module.scopes.any fun scope => !scope.format.validations.isEmpty :=
    Module.any_scopes_retyped same fun _ _ => rfl
  simp only [CppStl.source, checks, Module.foldScopes_retyped same CppStl.classDefs_retyped]
  rfl

theorem artifacts_retyped (same : module.SameMeaning types) (target : Target)
    (package : Option String) :
    target.artifacts package (module.retyped types) = target.artifacts package module := by
  cases target with
  | cppStl =>
    simp only [Target.artifacts, CppStl.artifacts, CppStl.header_retyped same,
      CppStl.source_retyped same]
    rfl
  | python =>
    simp only [Target.artifacts, Python.artifacts, Python.file_retyped same]
    rfl
  | ruby =>
    simp only [Target.artifacts, Ruby.artifacts, Ruby.file_retyped same]
    rfl
  | lua =>
    simp only [Target.artifacts, Lua.artifacts, Lua.file_retyped same]
    rfl
  | wiresharkLua =>
    simp only [Target.artifacts, Lua.dissectorArtifacts, Lua.file_retyped same]
    rfl

end Files

end FormatCompiler.Target

namespace FormatCompiler

set_option autoImplicit false

section Order

variable {format : Format} {types : List TypeDecl}

theorem Format.pathsDiffer
    (apart : (format.carriers.map fun decl => Module.pathOf format decl.name).Nodup) :
    Module.PathsDiffer format format.types :=
  List.pairwise_filter.mp (List.pairwise_map.mp apart)

/-- A format and the same with its types in another order have modules with scopes of the same
meaning, or neither has one. -/
theorem Format.supportedModule_of_perm (distinct : (format.types.map TypeDecl.name).Nodup)
    (differ : Module.PathsDiffer format format.types) (perm : format.types.Perm types) :
    (∃ module, format.supportedModule = .ok module ∧ module.SameMeaning types ∧
      Format.supportedModule { format with types } = .ok (module.retyped types)) ∨
    ∃ fault other, format.supportedModule = .error fault ∧
      Format.supportedModule { format with types } = .error other ∧
      (fault = other ∨ (∃ bad, fault = .badScope bad) ∧ ∃ bad, other = .badScope bad) := by
  unfold Format.supportedModule
  cases built : Module.ofFormat format with
  | ok module =>
    obtain ⟨builtAlso, same⟩ := Module.ofFormat_of_perm distinct differ perm built
    have endless : (module.retyped types).isEndless = module.isEndless := rfl
    rw [builtAlso]
    simp only [Module.unsupported?_retyped same, endless]
    cases module.unsupported? with
    | none =>
      cases module.isEndless with
      | false => exact .inl ⟨module, rfl, same, rfl⟩
      | true => exact .inr ⟨_, _, rfl, rfl, .inl rfl⟩
    | some cause => exact .inr ⟨_, _, rfl, rfl, .inl rfl⟩
  | error bad =>
    cases builtAlso : Module.ofFormat { format with types } with
    | error other => exact .inr ⟨_, _, rfl, rfl, .inr ⟨⟨bad, rfl⟩, other, rfl⟩⟩
    | ok module =>
      have distinctAlso : (types.map TypeDecl.name).Nodup :=
        (perm.map TypeDecl.name).nodup_iff.mp distinct
      have differAlso : Module.PathsDiffer { format with types } types :=
        differ.perm perm fun apart carries also => (apart also carries).symm
      have back := Module.ofFormat_of_perm distinctAlso differAlso perm.symm builtAlso
      cases built.symm.trans back.1

/-- The order in which types are declared does not matter to any target. Where no two types carry
formats with one path, the files made of a format are the same in every order of its types, or none
are made in any; a root inside itself has no end in any. What is reported then is the same too,
unless some format that is carried cannot be read: it is the first such one that is reported. -/
theorem artifacts_independent_of_type_order (valid : format.violation? = none)
    (apart : (format.carriers.map fun decl => Module.pathOf format decl.name).Nodup)
    (perm : format.types.Perm types) (name : String) (package : Option String) :
    (∃ files, format.artifacts name package = .ok files ∧
      Format.artifacts { format with types } name package = .ok files) ∨
    ∃ fault other, format.artifacts name package = .error fault ∧
      Format.artifacts { format with types } name package = .error other ∧
      (fault = other ∨ (∃ bad, fault = .badScope bad) ∧ ∃ bad, other = .badScope bad) := by
  cases known : Target.ofName? name with
  | none =>
    refine .inr ⟨.unknownTarget name, .unknownTarget name, ?_, ?_, .inl rfl⟩
    · rw [Format.artifacts, known]
    · rw [Format.artifacts, known]
  | some target =>
    rw [Format.artifacts_of_known _ known, Format.artifacts_of_known _ known]
    have distinct := (Format.typeNames_of_valid valid).2
    rcases Format.supportedModule_of_perm distinct (Format.pathsDiffer apart) perm with
      ⟨module, found, same, foundAlso⟩ | ⟨fault, other, failed, failedAlso, related⟩
    · rw [found, foundAlso]
      refine .inl ⟨target.artifacts package module, rfl, ?_⟩
      exact congrArg Except.ok (Target.artifacts_retyped same target package)
    · rw [failed, failedAlso]
      exact .inr ⟨fault, other, rfl, rfl, related⟩

/-- A scope and one inside it, declared in either order. -/
theorem artifacts_independent_of_type_order_nested :
    let leaf : Format :=
      { name := "leaf", order := .big, fields := [{ id := "x", type := .primitive .u2 }] }
    let outer : TypeDecl := ⟨"outer", .embed leaf⟩
    let inner : TypeDecl := ⟨"outer::inner", .embed leaf⟩
    let format : Format := { name := "top", order := .little, types := [inner, outer] }
    format.violation? = none ∧
      (format.carriers.map fun decl => Module.pathOf format decl.name).Nodup ∧
      ∃ files, format.artifacts "python" none = .ok files ∧
        Format.artifacts { format with types := [outer, inner] } "python" none = .ok files := by
  intro leaf outer inner format
  have listable : leaf.IsListable := ⟨by decide, by decide⟩
  have valid : format.violation? = none := by
    refine Format.violation_of_embeds (by decide) (by decide) ?_ (by simp)
    simp only [List.forall_mem_cons]
    exact ⟨⟨by decide, leaf, rfl⟩, ⟨by decide, leaf, rfl⟩, by simp⟩
  have paths : Module.pathOf format "outer" = "outer" ∧
      Module.pathOf format "outer::inner" = "outer::inner" := by
    change (Name.relativeTo "top" "outer").getD "outer" = "outer" ∧
      (Name.relativeTo "top" "outer::inner").getD "outer::inner" = "outer::inner"
    decide
  have apart : (format.carriers.map fun decl => Module.pathOf format decl.name).Nodup := by
    have carriers : format.carriers = [inner, outer] := by
      simp [Format.carriers, format, inner, outer, TypeDecl.carries_embed]
    rw [carriers, List.map_cons, List.map_cons, paths.1, paths.2]
    decide
  have built : Module.ofFormat format =
      .ok ⟨format, [("outer", leaf), ("outer::inner", leaf)]⟩ := by
    refine Module.ofFormat_eq_ok.mpr ⟨rfl, ?_⟩
    rw [Module.addScopes_embed _ _ _ listable, Module.addScopes_embed _ _ _ listable, paths.1,
      paths.2]
    rfl
  have supported : format.supportedModule =
      .ok ⟨format, [("outer", leaf), ("outer::inner", leaf)]⟩ :=
    Format.supportedModule_eq_ok_iff.mpr ⟨built, rfl, rfl⟩
  obtain ⟨files, made⟩ : ∃ files, format.artifacts "python" none = .ok files := by
    have known : Target.ofName? "python" = some .python := by decide
    rw [format.artifacts_of_known known, supported]
    exact ⟨_, rfl⟩
  refine ⟨valid, apart, ?_⟩
  rcases artifacts_independent_of_type_order valid apart (.swap outer inner []) "python" none with
    same | ⟨fault, other, failed, -⟩
  · exact same
  · cases made.symm.trans failed

end Order

end FormatCompiler
