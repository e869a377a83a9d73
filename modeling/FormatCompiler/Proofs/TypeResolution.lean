import FormatCompiler.Proofs.ScopeTable

/-!
Types that a format reads, resolved. Resolving takes the walk along aliases to its end. In a format
that keeps the rules no walk comes back to a name, and a name where one ends is the format's own,
that of a type that carries a format, or what an import provides.
-/

namespace FormatCompiler

set_option autoImplicit false

namespace Format

/-- A type that a field or a parsed instance is read with. -/
def ReadsType (format : Format) (ref : TypeRef) : Prop :=
  (∃ field ∈ format.fields, field.type = ref) ∨
    ∃ inst ∈ format.instances, ∃ rule, inst.body = .parse rule ∧ rule.type = ref

variable {format : Format} {start last : String}

theorem WellFormed.knows_of_readsType (formed : format.WellFormed)
    (reads : format.ReadsType (.named start)) : format.Knows start := by
  rcases reads with ⟨field, member, type⟩ | ⟨inst, member, rule, body, type⟩
  · exact ((formed.fields field member).typeKnown start type).2
  · exact (formed.instances inst member).typeKnown rule start body type

/-- What is known stays known along aliases. -/
theorem WellFormed.knows_of_path (formed : format.WellFormed) (known : format.Knows start)
    (path : Relation.ReflTransGen (LeadsTo format.types) start last) : format.Knows last := by
  cases path with
  | refl => exact known
  | tail _ leads => exact formed.aliasesKnown _ _ leads

open AliasTable in
/-- Resolving a type takes the walk along its aliases to the end, whatever the declarations are. For
a type that a format reads, if the format keeps the rules, the walk does not come back to a name. It
ends at a primitive, or at a name that is no alias: that of the format, of a type that carries a
format or of what an import provides. -/
theorem resolve_total_and_exact :
    (∀ (types : List TypeDecl) (ref : TypeRef),
      ∃! ending, Walk (.ofTypes types) [] ref ending ∧
        (ofTypes types).resolve ref = ending.resolved) ∧
    ∀ format : Format, format.violation? = none → ∀ ref, format.ReadsType ref →
      (∃ type, StandsFor format.types ref type ∧
        Walk (.ofTypes format.types) [] ref (.primitive type) ∧
        (ofTypes format.types).resolve ref = .primitive type) ∨
      ∃ start last, ref = .named start ∧
        Relation.ReflTransGen (LeadsTo format.types) start last ∧
        (∀ decl ∈ format.types, decl.name = last → decl.carries = true) ∧
        Walk (.ofTypes format.types) [] ref (.free last) ∧
        (ofTypes format.types).resolve ref = .opaqueName last ∧
        (last = format.name ∨ (∃ decl ∈ format.carriers, decl.name = last) ∨
          ∃ path ∈ format.imports, importStem path = last) := by
  constructor
  · intro types ref
    obtain ⟨ending, walk, same⟩ := (ofTypes types).exists_walk ref
    exact ⟨ending, ⟨walk, same⟩, fun other also => also.1.unique walk⟩
  · intro format valid ref reads
    have formed := format.violation_eq_none_iff_wellFormed.mp valid
    obtain ⟨ending, walk, same⟩ := (ofTypes format.types).exists_walk ref
    cases ending with
    | primitive type => exact .inl ⟨type, (walk.finds rfl).standsFor, walk, same⟩
    | free last =>
      obtain ⟨free, start, rfl, path⟩ := walk.path_of_free rfl
      have bare := target_eq_none_iff.mp free
      have path := Relation.ReflTransGen.mono (fun _ _ => leadsTo_of_leads) _ _ path
      refine .inr ⟨start, last, rfl, path, bare, walk, same, ?_⟩
      rcases formed.knows_of_path (formed.knows_of_readsType reads) path with
        own | ⟨decl, member, named⟩ | imported
      · exact .inl own
      · exact .inr (.inl ⟨decl, List.mem_filter.mpr ⟨member, bare decl member named⟩, named⟩)
      · exact .inr (.inr imported)
    | again last =>
      obtain ⟨cycle, -⟩ := walk.cycle_of_again rfl (by simp)
      have cycle := Relation.TransGen.mono (fun _ _ => leadsTo_of_leads) _ _ cycle
      exact absurd cycle (formed.acyclic last)

open AliasTable in
/-- Two aliases on the way to what an import provides. -/
theorem resolve_total_and_exact_import :
    let format : Format :=
      { name := "top", order := .little, imports := ["lib/common.ksir"],
        types := [⟨"head", .named "part"⟩, ⟨"part", .named "common"⟩],
        fields := [{ id := "x", type := .named "head" }] }
    format.violation? = none ∧ format.ReadsType (.named "head") ∧
      (ofTypes format.types).resolve (.named "head") = .opaqueName "common" ∧
      Walk (.ofTypes format.types) [] (.named "head") (.free "common") := by
  intro format
  have valid : format.violation? = none := by decide +kernel
  have reads : format.ReadsType (.named "head") := .inl ⟨_, List.mem_singleton_self _, rfl⟩
  have value : (ofTypes format.types).resolve (.named "head") = .opaqueName "common" := by
    decide +kernel
  refine ⟨valid, reads, value, ?_⟩
  rcases resolve_total_and_exact.2 format valid _ reads with
    ⟨type, -, -, same⟩ | ⟨start, last, -, -, -, walk, same, -⟩
  · rw [value] at same
    cases same
  · rw [value] at same
    cases same
    exact walk

end Format

end FormatCompiler
