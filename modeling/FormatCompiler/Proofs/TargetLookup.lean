import FormatCompiler.Proofs.SupportedScope
import FormatCompiler.Target.CppStl

/-!
What the targets look up in a scope. Where a type, an enum or a checked value is not found, a target
puts something else in its place. Beside each function that does so stands one that has no result
then. In a supported scope the two agree on everything that a reader is made of, so nothing is ever
made up.
-/

namespace FormatCompiler

set_option autoImplicit false

/-- The expressions of a format. -/
def Format.exprs (format : Format) : List Expr :=
  format.fields.flatMap Subset.fieldExprs ++ format.instances.flatMap (·.body.exprs) ++
    format.validations.map Validation.condition

namespace Scope

/-- What a field reads as a type, unless the type is neither a structure nor a primitive. -/
def read? (scope : Scope) (field : Field) (type : TypeRef) : Option Read :=
  match if field.switchOn.isNone then scope.structure? type else none with
  | some found => some (.record found)
  | none => (scope.primitive? type).map fun found =>
    .ofPrimitive found (scope.orderOf field.order) field.size field.encoding field.transform

/-- What an instance reads, unless its type is neither a structure nor a primitive. -/
def ruleRead? (scope : Scope) (rule : ParseRule) : Option Read :=
  match scope.structure? rule.type with
  | some found => some (.record found)
  | none => (scope.primitive? rule.type).map fun found =>
    .ofPrimitive found (scope.orderOf rule.order) rule.size rule.encoding none

/-- The enum a reference means, if there is one, qualified by the class that declares it. -/
def enumPath? (scope : Scope) (separator : String) (enumTitle : String → String)
    (reference : String) : Option String :=
  (scope.enumOwner? reference).map fun (owner, decl) =>
    scope.classPath separator owner ++ separator ++ enumTitle (Name.short decl.name)

end Scope

namespace Target.CppStl

/-- The type of the enum a reference means, if there is one. -/
def enumType? (scope : Scope) (reference : String) (full : Bool) : Option String :=
  (scope.enumOwner? reference).map fun (owner, decl) =>
    if owner.isEmpty then rootEnumType decl.name
    else if owner == scope.path && !full then nestedEnumType decl
    else classAt scope.module owner ++ "::" ++ nestedEnumType decl

/-- The type of one value of a field, unless its enum or its primitive is not found. -/
def baseType? (scope : Scope) (field : Field) (full : Bool) : Option String :=
  match field.enumName with
  | some reference => enumType? scope reference full
  | none =>
    match scope.fieldStructure? field with
    | some type => some (structureClass scope type full ++ "*")
    | none => (scope.fieldPrimitive? field).map primitiveType

/-- The type of an instance, unless it has not been worked out or its primitive is not found. -/
def instanceType? (scope : Scope) (inst : Instance) (full : Bool) : Option String :=
  match inst.body with
  | .value _ => (valueTypes scope.format.instances).lookup inst.id
  | .parse rule =>
    match scope.structure? rule.type with
    | some type => some (structureClass scope type full ++ "*")
    | none => (scope.primitive? rule.type).map primitiveType

/-- The type of what a validation looks at, if it is there. -/
def checkedType? (scope : Scope) (target : String) : Option String :=
  match scope.format.field? target, scope.format.instance? target with
  | some field, _ => some (accessorType scope field)
  | none, some inst => instanceType? scope inst false
  | none, none => none

end Target.CppStl

/-- What the declarations of a scope refer to is there, and its expressions are made of its members
and of operators that every target has. -/
structure Scope.Settled (scope : Scope) : Prop where
  stored : ∀ field ∈ scope.format.fields, scope.fieldStructure? field = none →
    ∃ type, scope.fieldPrimitive? field = some type
  cases : ∀ field ∈ scope.format.fields, scope.fieldStructure? field = none →
    ∀ case ∈ field.cases, ∃ type, scope.primitive? case.type = some type
  enums : ∀ field ∈ scope.format.fields, ∀ reference, field.enumName = some reference →
    scope.fieldStructure? field = none ∧
      (∃ type, scope.fieldPrimitive? field = some type ∧ type.isInteger = true) ∧
      ∃ owner decl, scope.enumOwner? reference = some (owner, decl)
  rules : ∀ inst ∈ scope.format.instances, ∀ rule, inst.body = .parse rule →
    (∃ found, scope.structure? rule.type = some found) ∨
      ∃ type, scope.primitive? rule.type = some type
  targets : ∀ validation ∈ scope.format.validations, scope.isMember validation.target = true
  exprs : ∀ expr ∈ scope.format.exprs, expr.IsSupported (scope.isMember · = true)

/-- Whatever the targets word for a scope is found, and nothing stands in its place. -/
structure Scope.Unguessed (scope : Scope) : Prop where
  read : ∀ field ∈ scope.format.fields, field.switchOn = none →
    scope.read? field field.type = some (scope.read field field.type)
  caseRead : ∀ field ∈ scope.format.fields, field.switchOn.isSome → ∀ case ∈ field.cases,
    scope.read? field case.type = some (scope.read field case.type) ∧
      scope.read field case.type = scope.primitiveRead field case.type
  ruleRead : ∀ inst ∈ scope.format.instances, ∀ rule, inst.body = .parse rule →
    scope.ruleRead? rule = some (scope.ruleRead rule)
  enumPath : ∀ field ∈ scope.format.fields, ∀ reference, field.enumName = some reference →
    ∀ separator enumTitle, scope.enumPath? separator enumTitle reference =
      some (scope.enumPath separator enumTitle reference)
  enumType : ∀ field ∈ scope.format.fields, ∀ reference, field.enumName = some reference →
    ∀ full, Target.CppStl.enumType? scope reference full =
      some (Target.CppStl.enumType scope reference full)
  baseType : ∀ field ∈ scope.format.fields, ∀ full,
    Target.CppStl.baseType? scope field full = some (Target.CppStl.baseType scope field full)
  instanceType : ∀ inst ∈ scope.format.instances, ∀ full,
    Target.CppStl.instanceType? scope inst full = some (Target.CppStl.instanceType scope inst full)
  checkedType : ∀ validation ∈ scope.format.validations,
    Target.CppStl.checkedType? scope validation.target =
      some (Target.CppStl.checkedType scope validation.target)
  /-- The field that a literal is expected of. -/
  literalField : ∀ validation ∈ scope.format.validations,
    (scope.expectedLiteral? validation).isSome →
      ∃ field, scope.format.field? validation.target = some field

namespace Scope

variable {scope : Scope}

theorem mem_members_iff (id : String) :
    id ∈ Subset.members scope.format ↔ scope.isMember id = true := by
  simp [Subset.members, isMember, Format.field?, Format.instance?]

theorem fieldStructure_switch {field : Field} (switched : field.switchOn.isSome) :
    scope.fieldStructure? field = none := by
  rw [fieldStructure?, if_pos switched]

theorem fieldStructure_plain {field : Field} (plain : field.switchOn = none) :
    scope.fieldStructure? field = scope.structure? field.type := by
  simp [fieldStructure?, plain]

theorem primitive_of_find {type : TypeRef} {found : Primitive}
    (primitive : scope.primitive? type = some found) : scope.primitive type = found := by
  rw [Scope.primitive, primitive, Option.getD_some]

/-- A type that is no structure is a primitive. -/
theorem primitive_of_structure_none {type : TypeRef} (none : scope.structure? type = none) :
    ∃ found, scope.primitive? type = some found := by
  unfold structure? at none
  unfold primitive? AliasTable.primitive?
  cases resolved : scope.aliases.resolve type with
  | primitive found => exact ⟨found, rfl⟩
  | opaqueName name =>
    rw [resolved] at none
    cases named : scope.module.scopeNamed? name <;> simp [named] at none

/-- A field outside a switch is read as a structure, or as the primitive it is stored as. -/
theorem read_found {field : Field} (plain : field.switchOn = none)
    (stored : scope.fieldStructure? field = none →
      ∃ type, scope.fieldPrimitive? field = some type) :
    scope.read? field field.type = some (scope.read field field.type) := by
  rw [fieldStructure_plain plain] at stored
  unfold read? Scope.read
  rw [plain, Option.isNone_none, if_pos rfl]
  cases found : scope.structure? field.type with
  | some type => rfl
  | none =>
    obtain ⟨type, primitive⟩ := stored found
    have own : scope.primitive? field.type = some type := by
      simpa [fieldPrimitive?, plain] using primitive
    simp only [own, Option.map_some, primitiveRead, primitive_of_find own]

theorem read_case {field : Field} (switched : field.switchOn.isSome) (type : TypeRef) :
    scope.read field type = scope.primitiveRead field type := by
  obtain ⟨selector, switchOn⟩ := Option.isSome_iff_exists.mp switched
  simp [Scope.read, switchOn]

theorem caseRead_found {field : Field} (switched : field.switchOn.isSome) {type : TypeRef}
    {found : Primitive} (primitive : scope.primitive? type = some found) :
    scope.read? field type = some (scope.read field type) := by
  obtain ⟨selector, switchOn⟩ := Option.isSome_iff_exists.mp switched
  rw [read_case switched, primitiveRead, primitive_of_find primitive]
  simp [read?, switchOn, primitive]

theorem ruleRead_found (rule : ParseRule) : scope.ruleRead? rule = some (scope.ruleRead rule) := by
  unfold ruleRead? Scope.ruleRead
  cases found : scope.structure? rule.type with
  | some type => rfl
  | none =>
    obtain ⟨type, primitive⟩ := primitive_of_structure_none found
    simp only [primitive, Option.map_some, primitive_of_find primitive]

theorem enumPath_found {reference owner : String} {decl : EnumDecl}
    (found : scope.enumOwner? reference = some (owner, decl)) (separator : String)
    (enumTitle : String → String) :
    scope.enumPath? separator enumTitle reference =
      some (scope.enumPath separator enumTitle reference) := by
  simp only [enumPath?, Scope.enumPath, found, Option.map_some]

end Scope

namespace Target.CppStl

variable {scope : Scope}

theorem enumType_found {reference owner : String} {decl : EnumDecl}
    (found : scope.enumOwner? reference = some (owner, decl)) (full : Bool) :
    enumType? scope reference full = some (enumType scope reference full) := by
  simp only [enumType?, enumType, found, Option.map_some]

theorem baseType_found {field : Field}
    (stored : scope.fieldStructure? field = none → ∃ type, scope.fieldPrimitive? field = some type)
    (tagged : ∀ reference, field.enumName = some reference →
      ∃ owner decl, scope.enumOwner? reference = some (owner, decl)) (full : Bool) :
    baseType? scope field full = some (baseType scope field full) := by
  unfold baseType? baseType
  cases named : field.enumName with
  | some reference =>
    obtain ⟨owner, decl, found⟩ := tagged reference named
    exact enumType_found found full
  | none =>
    cases found : scope.fieldStructure? field with
    | some type => rfl
    | none =>
      obtain ⟨type, primitive⟩ := stored found
      simp only [primitive, Option.map_some, Option.getD_some]

/-- How one instance adds to the types of computed values. -/
def addValueType (known : List (String × String)) (inst : Instance) : List (String × String) :=
  match inst.body with
  | .value expr => (inst.id, typeOfExpr known expr) :: known
  | .parse _ => known

theorem valueTypes_eq (instances : List Instance) :
    valueTypes instances = instances.foldl addValueType [] :=
  rfl

theorem lookup_addValueType_of_isSome {known : List (String × String)} {id : String}
    (found : (known.lookup id).isSome) (inst : Instance) :
    ((addValueType known inst).lookup id).isSome := by
  unfold addValueType
  split
  · rw [List.lookup_cons]
    split
    · rfl
    · exact found
  · exact found

/-- Every computed instance has its type worked out. -/
theorem lookup_foldl_addValueType (instances : List Instance) (known : List (String × String))
    {id : String} (present : (known.lookup id).isSome ∨
      ∃ inst ∈ instances, inst.id = id ∧ ∃ expr, inst.body = .value expr) :
    ((instances.foldl addValueType known).lookup id).isSome := by
  induction instances generalizing known with
  | nil => simpa using present
  | cons inst rest ih =>
    apply ih
    rcases present with found | ⟨other, member, rfl, expr, body⟩
    · exact Or.inl (lookup_addValueType_of_isSome found inst)
    · rcases List.mem_cons.mp member with rfl | later
      · left
        simp [addValueType, body]
      · exact Or.inr ⟨other, later, rfl, expr, body⟩

theorem instanceType_found {inst : Instance} (member : inst ∈ scope.format.instances)
    (full : Bool) : instanceType? scope inst full = some (instanceType scope inst full) := by
  unfold instanceType? instanceType
  cases body : inst.body with
  | value expr =>
    have typed : ((valueTypes scope.format.instances).lookup inst.id).isSome := by
      rw [valueTypes_eq]
      exact lookup_foldl_addValueType _ _ (Or.inr ⟨inst, member, rfl, expr, body⟩)
    obtain ⟨type, found⟩ := Option.isSome_iff_exists.mp typed
    simp only [found, Option.getD_some]
  | parse rule =>
    dsimp only
    cases found : scope.structure? rule.type with
    | some type => rfl
    | none =>
      obtain ⟨type, primitive⟩ := Scope.primitive_of_structure_none found
      simp only [primitive, Option.map_some, Scope.primitive_of_find primitive]

theorem checkedType_found {target : String} (member : scope.isMember target = true) :
    checkedType? scope target = some (checkedType scope target) := by
  unfold checkedType? checkedType
  cases field : scope.format.field? target with
  | some found => rfl
  | none =>
    cases inst : scope.format.instance? target with
    | some found => exact instanceType_found (List.mem_of_find?_eq_some inst) false
    | none => simp [Scope.isMember, field, inst] at member

end Target.CppStl

namespace Scope

variable {scope : Scope}

theorem IsSupported.settled (supported : scope.IsSupported) : scope.Settled where
  stored field member structureless := by
    obtain ⟨type, found, -⟩ := (supported.fields field member).stored structureless
    exact ⟨type, found⟩
  cases field member := (supported.fields field member).cases
  enums field member reference tagged := by
    have own := supported.fields field member
    have structureless : scope.fieldStructure? field = none := by
      by_contra found
      obtain ⟨-, -, untagged⟩ := own.plain (Option.isSome_iff_ne_none.mpr found)
      rw [untagged] at tagged
      cases tagged
    obtain ⟨type, found, -, -, integer⟩ := own.stored structureless
    obtain ⟨declared, isInteger⟩ := integer reference tagged
    obtain ⟨⟨owner, decl⟩, owned⟩ := Option.isSome_iff_exists.mp declared
    exact ⟨structureless, ⟨type, found, isInteger⟩, owner, decl, owned⟩
  rules inst member rule body := by
    cases found : scope.structure? rule.type with
    | some type => exact Or.inl ⟨type, rfl⟩
    | none => exact Or.inr (primitive_of_structure_none found)
  targets validation member := (mem_members_iff _).mp (supported.targets validation member)
  exprs expr member := by
    have members : ∀ id, id ∈ Subset.members scope.format → scope.isMember id = true :=
      fun id => (mem_members_iff id).mp
    rcases List.mem_append.mp member with declared | checked
    · rcases List.mem_append.mp declared with ofField | ofInstance
      · obtain ⟨field, listed, used⟩ := List.mem_flatMap.mp ofField
        exact (supported.fieldExprs field listed expr used).mono members
      · -- what an instance may use, the members before it, are members
        obtain ⟨inst, listed, used⟩ := List.mem_flatMap.mp ofInstance
        obtain ⟨front, back, shape⟩ := List.append_of_mem listed
        refine ((supported.instances front inst back shape).exprs expr used).mono ?_
        intro id before
        apply members
        rw [Subset.members, shape, List.map_append, ← List.append_assoc]
        exact List.mem_append_left _ before
    · obtain ⟨validation, listed, rfl⟩ := List.mem_map.mp checked
      exact (supported.conditions validation listed).mono members

theorem Settled.unguessed (settled : scope.Settled) : scope.Unguessed where
  read field member plain := read_found plain (settled.stored field member)
  caseRead field member switched case listed := by
    obtain ⟨type, found⟩ :=
      settled.cases field member (fieldStructure_switch switched) case listed
    exact ⟨caseRead_found switched found, read_case switched _⟩
  ruleRead inst member rule body := ruleRead_found rule
  enumPath field member reference tagged := by
    obtain ⟨-, -, owner, decl, found⟩ := settled.enums field member reference tagged
    exact enumPath_found found
  enumType field member reference tagged := by
    obtain ⟨-, -, owner, decl, found⟩ := settled.enums field member reference tagged
    exact Target.CppStl.enumType_found found
  baseType field member := Target.CppStl.baseType_found (settled.stored field member)
    fun reference tagged => (settled.enums field member reference tagged).2.2
  instanceType inst member := Target.CppStl.instanceType_found member
  checkedType validation member := Target.CppStl.checkedType_found (settled.targets _ member)
  literalField validation member expected := by
    cases found : scope.format.field? validation.target with
    | some field => exact ⟨field, rfl⟩
    | none => simp [expectedLiteral?, found] at expected

end Scope

/-- In every scope of a supported module, valid or not, what is referred to is there: the primitive
of each field that is no structure, and of each of its cases; the enum of a tagged field, which is
an integer; the type of an instance; the member that a validation is about, and those that
expressions use. So whatever a target words for it is found. That a computed value is of the default
type when nothing better is known about it is a rule, and no lookup that failed. -/
theorem Module.settled_and_unguessed {module : Module} (supported : module.unsupported? = none) :
    ∀ scope ∈ module.scopes, scope.Settled ∧ scope.Unguessed := by
  intro scope listed
  have settled := ((Module.unsupported_eq_none_iff module).mp supported scope listed).settled
  exact ⟨settled, settled.unguessed⟩

/-- An enum looked up from inside, an alias among the cases of a switch, and instances that use each
other in turn. -/
theorem Module.settled_and_unguessed_tagged :
    let inner : Format :=
      { name := "inner", order := .big,
        fields := [{ id := "x", type := .named "word_t", enumName := some "top::kind" }] }
    let root : Format :=
      { name := "top", order := .little, types := [⟨"word_t", .primitive .u2⟩],
        enums := [⟨"kind", [⟨0, "zero"⟩]⟩],
        fields :=
          [{ id := "tag", type := .primitive .u1, enumName := some "kind" },
            { id := "body", type := .primitive .u1, switchOn := some (.name "tag"),
              cases := [⟨some (.int 1), .primitive .u4⟩, ⟨none, .named "word_t"⟩] }],
        instances :=
          [⟨"twice", .value (.binary "*" (.name "tag") (.int 2))⟩,
            ⟨"rest", .parse { type := .primitive .str, size := some (.name "twice") }⟩],
        validations := [⟨"rest", .unary (.sign "!") (.binary "==" (.name "twice") (.int 0)), ""⟩] }
    let module : Module := { root, nested := [("in", inner)] }
    module.unsupported? = none ∧ ∀ scope ∈ module.scopes, scope.Settled ∧ scope.Unguessed := by
  intro inner root module
  have supported : module.unsupported? = none := by decide +kernel
  exact ⟨supported, settled_and_unguessed supported⟩

end FormatCompiler
