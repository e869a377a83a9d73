import Mathlib.Data.List.Nodup
import Mathlib.Logic.Relation
import FormatCompiler.Proofs.AliasGraph
import FormatCompiler.Proofs.AliasResolution

/-!
The rules of formats, said without the order in which they are checked. A format is well formed when
its names are there and distinct, what it refers to exists, and its aliases lead somewhere. The
check finds a violation in exactly the formats that are not well formed.
-/

namespace FormatCompiler

set_option autoImplicit false

/-- A declared name is what a reference says, as it stands or below further qualification. -/
def IsNamedBy (declared reference : String) : Prop :=
  declared = reference ∨ ':' :: ':' :: reference.toList <:+ declared.toList

/-- A name that a type may refer to: the format's own, that of a declared type, or what an import
provides. -/
def Format.Knows (format : Format) (name : String) : Prop :=
  name = format.name ∨ (∃ decl ∈ format.types, decl.name = name) ∨
    ∃ path ∈ format.imports, importStem path = name

structure EnumDecl.WellFormed (decl : EnumDecl) : Prop where
  named : decl.name ≠ ""
  inhabited : decl.values ≠ []
  valuesNamed : ∀ value ∈ decl.values, value.name ≠ ""
  distinctNames : (decl.values.map EnumValue.name).Nodup
  distinctValues : (decl.values.map EnumValue.value).Nodup

structure Field.WellFormed (format : Format) (field : Field) : Prop where
  named : field.id ≠ ""
  typeKnown : ∀ name, field.type = .named name → name ≠ "" ∧ format.Knows name
  /-- Only text has an encoding; what a structure makes of it is not looked at. -/
  encoded : field.encoding.isSome → ∀ type, StandsFor format.types field.type type → type = .str
  repeated : field.repeatExpr.isSome ↔ field.repetition = .times ∨ field.repetition = .stopWhen
  switched : field.cases ≠ [] ↔ field.switchOn.isSome
  oneFallback : field.cases.countP (·.value.isNone) ≤ 1
  primitiveCases : ∀ case ∈ field.cases, ∃ type, StandsFor format.types case.type type
  enumerated : ∀ name, field.enumName = some name →
    (∃ type, StandsFor format.types field.type type ∧ type.isInteger = true) ∧
      ∃ decl ∈ format.enums, IsNamedBy decl.name name

structure Instance.WellFormed (format : Format) (inst : Instance) : Prop where
  named : inst.id ≠ ""
  typeKnown : ∀ rule name, inst.body = .parse rule → rule.type = .named name → format.Knows name

structure Format.WellFormed (format : Format) : Prop where
  named : format.name ≠ ""
  typesNamed : ∀ decl ∈ format.types, decl.name ≠ ""
  distinctTypes : (format.types.map TypeDecl.name).Nodup
  ownName : ∀ decl ∈ format.types, decl.name ≠ format.name
  targetsNamed : ∀ decl ∈ format.types, decl.type ≠ .named ""
  enums : ∀ decl ∈ format.enums, decl.WellFormed
  distinctEnums : (format.enums.map EnumDecl.name).Nodup
  fields : ∀ field ∈ format.fields, field.WellFormed format
  instances : ∀ inst ∈ format.instances, inst.WellFormed format
  validations : ∀ validation ∈ format.validations, validation.target ≠ ""
  /-- An alias stands for something. -/
  aliasesKnown : ∀ name target, LeadsTo format.types name target → format.Knows target
  /-- No alias stands for itself, however many others are between. -/
  acyclic : ∀ name, ¬ Relation.TransGen (LeadsTo format.types) name name

theorem Name.refersTo_iff (declared reference : String) :
    Name.refersTo declared reference = true ↔ IsNamedBy declared reference := by
  unfold refersTo IsNamedBy dropSuffix
  rw [Bool.or_eq_true, beq_iff_eq]
  apply or_congr Iff.rfl
  by_cases ends : reference.toList <:+ declared.toList
  · obtain ⟨outer, shape⟩ := ends
    have front :
        declared.toList.take (declared.toList.length - reference.toList.length) = outer := by
      simp [← shape]
    have cut : reference.toList.isSuffixOf declared.toList := by simp [← shape]
    simp only [cut, ↓reduceIte, front, List.isSuffixOf_iff_suffix]
    rw [← shape]
    exact List.suffix_append_self_iff.symm
  · have uncut : reference.toList.isSuffixOf declared.toList = false := by
      rw [← Bool.not_eq_true, List.isSuffixOf_iff_suffix]
      exact ends
    simp only [uncut, Bool.false_eq_true, ↓reduceIte, false_iff]
    intro longer
    exact ends ((List.suffix_append [':', ':'] reference.toList).trans longer)

theorem Format.knows_iff (format : Format) (name : String) :
    format.knows name = true ↔ format.Knows name := by
  simp [Format.knows, Format.Knows, or_assoc]

namespace Rules

theorem orElse_eq_none {first second : Option Violation} :
    (first <|> second) = none ↔ first = none ∧ second = none := by
  cases first <;> simp

theorem when_eq_none {broken : Bool} {violation : Violation} :
    violation.when broken = none ↔ broken = false := by
  cases broken <;> simp [Violation.when]

theorem typeViolation_eq_none_iff (seen : List String) (types : List TypeDecl) :
    typeViolation? seen types = none ↔
      (∀ decl ∈ types, decl.name ≠ "") ∧ (∀ decl ∈ types, decl.type ≠ .named "") ∧
        (types.map TypeDecl.name).Nodup ∧ (types.map TypeDecl.name).Disjoint seen := by
  induction types generalizing seen with
  | nil => simp [typeViolation?]
  | cons decl types ih =>
    simp only [typeViolation?, orElse_eq_none, when_eq_none, ih, List.forall_mem_cons,
      List.map_cons, List.nodup_cons, List.disjoint_cons_left, List.disjoint_cons_right,
      List.contains_eq_mem, decide_eq_false_iff_not, beq_eq_false_iff_ne,
      String.isEmpty_eq_false_iff]
    tauto

theorem enumValueViolation_eq_none_iff (enumName : String) (seen values : List EnumValue) :
    enumValueViolation? enumName seen values = none ↔
      (∀ value ∈ values, value.name ≠ "") ∧
        ((values.map EnumValue.name).Nodup ∧
          (values.map EnumValue.name).Disjoint (seen.map EnumValue.name)) ∧
        (values.map EnumValue.value).Nodup ∧
          (values.map EnumValue.value).Disjoint (seen.map EnumValue.value) := by
  induction values generalizing seen with
  | nil => simp [enumValueViolation?]
  | cons value values ih =>
    have name : seen.any (·.name == value.name) = false ↔ value.name ∉ seen.map EnumValue.name := by
      simp
    have number : seen.any (·.value == value.value) = false ↔
        value.value ∉ seen.map EnumValue.value := by
      simp
    simp only [enumValueViolation?, orElse_eq_none, when_eq_none, ih, name, number,
      List.forall_mem_cons, List.map_cons, List.nodup_cons, List.disjoint_cons_left,
      List.disjoint_cons_right, String.isEmpty_eq_false_iff]
    tauto

theorem enumViolation_eq_none_iff (seen : List String) (decls : List EnumDecl) :
    enumViolation? seen decls = none ↔
      (∀ decl ∈ decls, decl.WellFormed) ∧ (decls.map EnumDecl.name).Nodup ∧
        (decls.map EnumDecl.name).Disjoint seen := by
  induction decls generalizing seen with
  | nil => simp [enumViolation?]
  | cons decl decls ih =>
    have first : decl.WellFormed ↔ decl.name ≠ "" ∧ decl.values ≠ [] ∧
        enumValueViolation? decl.name [] decl.values = none := by
      rw [enumValueViolation_eq_none_iff]
      constructor
      · intro formed
        exact ⟨formed.named, formed.inhabited, formed.valuesNamed,
          ⟨formed.distinctNames, by simp⟩, formed.distinctValues, by simp⟩
      · rintro ⟨named, inhabited, valuesNamed, ⟨distinctNames, -⟩, distinctValues, -⟩
        exact ⟨named, inhabited, valuesNamed, distinctNames, distinctValues⟩
    simp only [enumViolation?, orElse_eq_none, when_eq_none, ih, first, List.forall_mem_cons,
      List.map_cons, List.nodup_cons, List.disjoint_cons_left, List.disjoint_cons_right,
      List.contains_eq_mem, decide_eq_false_iff_not, String.isEmpty_eq_false_iff,
      List.isEmpty_eq_false_iff]
    tauto

theorem caseViolation_eq_none_iff (aliases : AliasTable) (hasFallback : Bool)
    (cases : List SwitchCase) :
    caseViolation? aliases hasFallback cases = none ↔
      cases.countP (·.value.isNone) + hasFallback.toNat ≤ 1 ∧
        ∀ case ∈ cases, (aliases.primitive? case.type).isSome := by
  induction cases generalizing hasFallback with
  | nil => cases hasFallback <;> simp [caseViolation?]
  | cons case cases ih =>
    have resolved : (aliases.primitive? case.type).isNone = false ↔
        (aliases.primitive? case.type).isSome := by
      simp
    simp only [caseViolation?, orElse_eq_none, when_eq_none, ih, resolved, List.forall_mem_cons,
      List.countP_cons]
    cases valued : case.value.isNone <;> cases hasFallback <;> simp <;> tauto

theorem fieldTypeViolation_eq_none_iff (format : Format) (type : TypeRef) :
    fieldTypeViolation? format type = none ↔
      ∀ name, type = .named name → name ≠ "" ∧ format.Knows name := by
  cases type with
  | primitive type => simp [fieldTypeViolation?]
  | named name =>
    simp only [fieldTypeViolation?, orElse_eq_none, when_eq_none, String.isEmpty_eq_false_iff,
      Bool.not_eq_false', Format.knows_iff, TypeRef.named.injEq, forall_eq']

theorem repeatViolation_eq_none_iff (field : Field) :
    repeatViolation? field = none ↔
      (field.repeatExpr.isSome ↔ field.repetition = .times ∨ field.repetition = .stopWhen) := by
  simp only [repeatViolation?, orElse_eq_none, when_eq_none]
  cases field.repetition <;> cases field.repeatExpr <;> simp [Repetition.takesExpr]

variable {format : Format}

theorem switchViolation_eq_none_iff (distinct : (format.types.map TypeDecl.name).Nodup)
    (field : Field) :
    switchViolation? (.ofTypes format.types) field = none ↔
      (field.cases ≠ [] ↔ field.switchOn.isSome) ∧ field.cases.countP (·.value.isNone) ≤ 1 ∧
        ∀ case ∈ field.cases, ∃ type, StandsFor format.types case.type type := by
  have primitives : ∀ type : TypeRef, ((AliasTable.ofTypes format.types).primitive? type).isSome ↔
      ∃ primitive, StandsFor format.types type primitive := by
    intro type
    simp only [Option.isSome_iff_exists, AliasTable.primitive_eq_some_iff distinct]
  simp only [switchViolation?, orElse_eq_none, when_eq_none, caseViolation_eq_none_iff,
    primitives]
  cases field.cases <;> cases field.switchOn <;> simp

theorem fieldEnumViolation_eq_none_iff (distinct : (format.types.map TypeDecl.name).Nodup)
    (field : Field) :
    fieldEnumViolation? format ((AliasTable.ofTypes format.types).primitive? field.type) field =
        none ↔
      ∀ name, field.enumName = some name →
        (∃ type, StandsFor format.types field.type type ∧ type.isInteger = true) ∧
          ∃ decl ∈ format.enums, IsNamedBy decl.name name := by
  have integers : ((AliasTable.ofTypes format.types).primitive? field.type).any
      Primitive.isInteger = true ↔
        ∃ type, StandsFor format.types field.type type ∧ type.isInteger = true := by
    simp only [← AliasTable.primitive_eq_some_iff distinct]
    cases (AliasTable.ofTypes format.types).primitive? field.type <;> simp
  unfold fieldEnumViolation?
  cases field.enumName with
  | none => simp
  | some name =>
    simp only [orElse_eq_none, when_eq_none, Bool.not_eq_false', integers, List.any_eq_true,
      Name.refersTo_iff, Option.some.injEq, forall_eq']

theorem encoding_iff (distinct : (format.types.map TypeDecl.name).Nodup) (field : Field) :
    (field.encoding.isSome &&
        ((AliasTable.ofTypes format.types).primitive? field.type).any (· != .str)) = false ↔
      (field.encoding.isSome → ∀ type, StandsFor format.types field.type type → type = .str) := by
  simp only [← AliasTable.primitive_eq_some_iff distinct]
  cases (AliasTable.ofTypes format.types).primitive? field.type <;> cases field.encoding <;> simp

theorem fieldViolation_eq_none_iff (distinct : (format.types.map TypeDecl.name).Nodup)
    (field : Field) :
    fieldViolation? format (.ofTypes format.types) field = none ↔ field.WellFormed format := by
  simp only [fieldViolation?, orElse_eq_none, when_eq_none, String.isEmpty_eq_false_iff,
    fieldTypeViolation_eq_none_iff, encoding_iff distinct, repeatViolation_eq_none_iff,
    switchViolation_eq_none_iff distinct, fieldEnumViolation_eq_none_iff distinct]
  constructor
  · rintro ⟨named, typeKnown, encoded, repeated, ⟨switched, oneFallback, primitiveCases⟩,
      enumerated⟩
    exact ⟨named, typeKnown, encoded, repeated, switched, oneFallback, primitiveCases, enumerated⟩
  · intro formed
    exact ⟨formed.named, formed.typeKnown, formed.encoded, formed.repeated,
      ⟨formed.switched, formed.oneFallback, formed.primitiveCases⟩, formed.enumerated⟩

theorem instanceViolation_eq_none_iff (inst : Instance) :
    instanceViolation? format inst = none ↔ inst.WellFormed format := by
  obtain ⟨id, body⟩ := inst
  have parts : Instance.WellFormed format ⟨id, body⟩ ↔ id ≠ "" ∧
      ∀ rule name, body = .parse rule → rule.type = .named name → format.Knows name :=
    ⟨fun formed => ⟨formed.named, formed.typeKnown⟩, fun both => ⟨both.1, both.2⟩⟩
  rw [parts, instanceViolation?, orElse_eq_none, when_eq_none, String.isEmpty_eq_false_iff]
  apply and_congr Iff.rfl
  cases body with
  | value expr => simp [Instance.rule?]
  | parse rule =>
    obtain ⟨type, order, position, size, encoding⟩ := rule
    cases type with
    | primitive type =>
      refine iff_of_true rfl ?_
      rintro rule name ⟨⟩ ⟨⟩
    | named name =>
      simp only [Instance.rule?, Option.map_some, when_eq_none, Bool.not_eq_false',
        Format.knows_iff]
      constructor
      · rintro known rule name ⟨⟩ ⟨⟩
        exact known
      · intro known
        exact known _ name rfl rfl

end Rules

theorem Format.aliasOf_eq (format : Format) :
    Rules.AliasOf format.aliasEdges = LeadsTo format.types := by
  funext name target
  apply propext
  unfold Rules.AliasOf LeadsTo Format.aliasEdges
  rw [List.mem_filterMap]
  constructor
  · rintro ⟨decl, member, edge⟩
    split at edge
    · cases edge
    · next found type =>
      split at edge
      · next bare =>
        cases edge
        exact ⟨decl, member, rfl, type, by simpa using bare⟩
      · cases edge
  · rintro ⟨decl, member, rfl, type, bare⟩
    exact ⟨decl, member, by simp [type, type ▸ bare]⟩

/-- An edge of the alias graph keeps the name of its declaration. -/
theorem Format.aliasEdges_sublist (format : Format) :
    (format.aliasEdges.map Prod.fst).Sublist (format.types.map TypeDecl.name) := by
  unfold Format.aliasEdges
  induction format.types with
  | nil => simp
  | cons decl types ih =>
    rw [List.filterMap_cons]
    split
    · exact ih.cons decl.name
    · next edge found =>
      have same : edge.1 = decl.name := by
        split at found
        · cases found
        · split at found <;> cases found
          rfl
      rw [List.map_cons, List.map_cons, same]
      exact ih.cons_cons decl.name

open Rules in
/-- The check of a format finds nothing exactly when the format is well formed. -/
theorem Format.violation_eq_none_iff_wellFormed (format : Format) :
    format.violation? = none ↔ format.WellFormed := by
  have own : (format.types.map TypeDecl.name).Disjoint [format.name] ↔
      ∀ decl ∈ format.types, decl.name ≠ format.name := by
    simp
  have targets : (format.validations.any fun validation => validation.target.isEmpty) = false ↔
      ∀ validation ∈ format.validations, validation.target ≠ "" := by
    simp
  have edges : (∀ edge ∈ format.aliasEdges, format.knows edge.2 = true) ↔
      ∀ name target, LeadsTo format.types name target → format.Knows target := by
    simp only [← Format.aliasOf_eq, AliasOf, ← Format.knows_iff, Prod.forall]
  simp only [Format.violation?, orElse_eq_none, when_eq_none, String.isEmpty_eq_false_iff,
    typeViolation_eq_none_iff, enumViolation_eq_none_iff, List.findSome?_eq_none_iff,
    instanceViolation_eq_none_iff, own, targets]
  constructor
  · rintro ⟨named, ⟨typesNamed, targetsNamed, distinctTypes, ownName⟩, ⟨enums, distinctEnums, -⟩,
      fields, instances, validations, aliases⟩
    rw [aliasViolation_eq_none_iff (distinctTypes.sublist format.aliasEdges_sublist), edges,
      Format.aliasOf_eq] at aliases
    exact ⟨named, typesNamed, distinctTypes, ownName, targetsNamed, enums, distinctEnums,
      fun field member => (fieldViolation_eq_none_iff distinctTypes field).mp (fields field member),
      instances, validations, aliases.1, aliases.2⟩
  · intro formed
    refine ⟨formed.named,
      ⟨formed.typesNamed, formed.targetsNamed, formed.distinctTypes, formed.ownName⟩,
      ⟨formed.enums, formed.distinctEnums, List.disjoint_nil_right _⟩, ?_, formed.instances,
      formed.validations, ?_⟩
    · intro field member
      exact (fieldViolation_eq_none_iff formed.distinctTypes field).mpr (formed.fields field member)
    · rw [aliasViolation_eq_none_iff (formed.distinctTypes.sublist format.aliasEdges_sublist),
        edges, Format.aliasOf_eq]
      exact ⟨formed.aliasesKnown, formed.acyclic⟩

end FormatCompiler
