import Mathlib.Data.List.Perm.Basic
import FormatCompiler.Proofs.WellFormed

/-!
Formats that declare more than others, or the same in another order. What a field or an instance
needs stays there when declarations are added; only the encoding of a field can become wrong, when
its type gets a meaning that it did not have. The rules do not depend on the order of declarations.
-/

namespace FormatCompiler

set_option autoImplicit false

section Declarations

variable {types more : List TypeDecl}

theorem StandsFor.mono (within : types ⊆ more) {ref : TypeRef} {type : Primitive}
    (stands : StandsFor types ref type) : StandsFor more ref type := by
  induction stands with
  | primitive type => exact .primitive type
  | declared member bare next ih => exact .declared (within member) bare ih

theorem LeadsTo.mono (within : types ⊆ more) {name target : String}
    (leads : LeadsTo types name target) : LeadsTo more name target := by
  obtain ⟨decl, member, named, type, bare⟩ := leads
  exact ⟨decl, within member, named, type, bare⟩

end Declarations

open Rules in
/-- The checks of a format that do not depend on each other, and those of its fields and aliases,
which make sense where no type is declared twice. -/
theorem Format.violation_eq_none_iff_checks (format : Format) :
    format.violation? = none ↔
      (format.name ≠ "" ∧ typeViolation? [format.name] format.types = none ∧
        enumViolation? [] format.enums = none ∧
        ∀ validation ∈ format.validations, validation.target ≠ "") ∧
      (∀ field ∈ format.fields, field.WellFormed format) ∧
      (∀ inst ∈ format.instances, inst.WellFormed format) ∧
      (∀ name target, LeadsTo format.types name target → format.Knows target) ∧
      ∀ name, ¬ Relation.TransGen (LeadsTo format.types) name name := by
  have targets : (format.validations.any fun validation => validation.target.isEmpty) = false ↔
      ∀ validation ∈ format.validations, validation.target ≠ "" := by
    simp
  have edges : (∀ edge ∈ format.aliasEdges, format.knows edge.2 = true) ↔
      ∀ name target, LeadsTo format.types name target → format.Knows target := by
    simp only [← Format.aliasOf_eq, AliasOf, ← Format.knows_iff, Prod.forall]
  simp only [Format.violation?, orElse_eq_none, when_eq_none, String.isEmpty_eq_false_iff,
    List.findSome?_eq_none_iff, instanceViolation_eq_none_iff, targets]
  by_cases types : typeViolation? [format.name] format.types = none
  · obtain ⟨-, -, distinct, -⟩ := (typeViolation_eq_none_iff _ _).mp types
    simp only [fieldViolation_eq_none_iff distinct, edges, Format.aliasOf_eq,
      aliasViolation_eq_none_iff (distinct.sublist format.aliasEdges_sublist)]
    tauto
  · tauto

section Extension

variable {format whole : Format}

/-- A field keeps the rules in a format that declares more, if its encoding still fits. -/
theorem Field.WellFormed.extend {field : Field} (formed : field.WellFormed format)
    (known : ∀ name, format.Knows name → whole.Knows name) (types : format.types ⊆ whole.types)
    (enums : format.enums ⊆ whole.enums)
    (encoded : field.encoding.isSome →
      ∀ type, StandsFor whole.types field.type type → type = .str) :
    field.WellFormed whole where
  named := formed.named
  typeKnown name type := (formed.typeKnown name type).imp_right (known name)
  encoded := encoded
  repeated := formed.repeated
  switched := formed.switched
  oneFallback := formed.oneFallback
  primitiveCases case member := (formed.primitiveCases case member).imp fun _ => .mono types
  enumerated name called := by
    obtain ⟨⟨type, stands, integer⟩, decl, member, refers⟩ := formed.enumerated name called
    exact ⟨⟨type, stands.mono types, integer⟩, decl, enums member, refers⟩

theorem Instance.WellFormed.extend {inst : Instance} (formed : inst.WellFormed format)
    (known : ∀ name, format.Knows name → whole.Knows name) : inst.WellFormed whole where
  named := formed.named
  typeKnown rule name body type := known name (formed.typeKnown rule name body type)

end Extension

/-- Two formats that are the same but for the order of their imports, types and enums. -/
structure Format.Reordered (first second : Format) : Prop where
  name : first.name = second.name
  order : first.order = second.order
  fields : first.fields = second.fields
  instances : first.instances = second.instances
  validations : first.validations = second.validations
  imports : first.imports.Perm second.imports
  types : first.types.Perm second.types
  enums : first.enums.Perm second.enums

namespace Format.Reordered

variable {first second : Format}

theorem symm (same : first.Reordered second) : second.Reordered first where
  name := same.name.symm
  order := same.order.symm
  fields := same.fields.symm
  instances := same.instances.symm
  validations := same.validations.symm
  imports := same.imports.symm
  types := same.types.symm
  enums := same.enums.symm

theorem knows (same : first.Reordered second) (name : String) (known : first.Knows name) :
    second.Knows name := by
  rcases known with own | ⟨decl, member, named⟩ | ⟨path, member, stem⟩
  · exact .inl (same.name ▸ own)
  · exact .inr (.inl ⟨decl, same.types.subset member, named⟩)
  · exact .inr (.inr ⟨path, same.imports.subset member, stem⟩)

theorem violation (same : first.Reordered second) (valid : first.violation? = none) :
    second.violation? = none := by
  rw [Format.violation_eq_none_iff_checks] at valid ⊢
  obtain ⟨⟨named, types, enums, validations⟩, fields, instances, known, acyclic⟩ := valid
  have back : second.types ⊆ first.types := same.types.symm.subset
  have typeNames := same.types.map TypeDecl.name
  have enumNames := same.enums.map EnumDecl.name
  rw [Rules.typeViolation_eq_none_iff] at types ⊢
  rw [Rules.enumViolation_eq_none_iff] at enums ⊢
  refine ⟨⟨same.name ▸ named, ?_, ?_, same.validations ▸ validations⟩, ?_, ?_, ?_, ?_⟩
  · obtain ⟨present, targets, distinct, apart⟩ := types
    rw [← same.name]
    exact ⟨fun decl member => present decl (back member),
      fun decl member => targets decl (back member), typeNames.nodup_iff.mp distinct,
      fun _ member => apart (typeNames.mem_iff.mpr member)⟩
  · obtain ⟨formed, distinct, -⟩ := enums
    exact ⟨fun decl member => formed decl (same.enums.mem_iff.mpr member),
      enumNames.nodup_iff.mp distinct, List.disjoint_nil_right _⟩
  · rw [← same.fields]
    intro field member
    refine (fields field member).extend same.knows same.types.subset same.enums.subset ?_
    intro encoding type stands
    exact (fields field member).encoded encoding type (stands.mono back)
  · rw [← same.instances]
    exact fun inst member => (instances inst member).extend same.knows
  · exact fun name target leads => same.knows target (known name target (leads.mono back))
  · intro name cycle
    exact acyclic name (Relation.TransGen.mono (fun _ _ leads => LeadsTo.mono back leads) _ _ cycle)

end Format.Reordered

end FormatCompiler
