import FormatCompiler.Proofs.ScopeTable

/-!
Aliases of the root, seen from a nested scope. The scope looks up every name on the way among its
own aliases first, so an alias of the root means what it means in the root unless the way from it
comes to a name that the scope declares as an alias itself. From the first such name on, the way is
that of the scope.
-/

namespace FormatCompiler

set_option autoImplicit false

namespace AliasTable

variable {first second table : AliasTable} {name start last : String} {ref : TypeRef}
  {type : Primitive}

/-- What a type leads to depends on the aliases on the way alone. -/
theorem finds_congr
    (same : ∀ start, ref = .named start → ∀ link, Relation.ReflTransGen first.Leads start link →
      second.target? link = first.target? link) :
    Finds second ref type ↔ Finds first ref type := by
  constructor
  · intro finds
    induction finds with
    | primitive type => exact .primitive type
    | @next name ref type target rest ih =>
      rw [same name rfl name .refl] at target
      refine .next target (ih ?_)
      rintro start rfl link path
      exact same name rfl link (.head target path)
  · intro finds
    induction finds with
    | primitive type => exact .primitive type
    | @next name ref type target rest ih =>
      refine .next ((same name rfl name .refl).trans target) (ih ?_)
      rintro start rfl link path
      exact same name rfl link (.head target path)

theorem primitive_congr
    (same : ∀ link, Relation.ReflTransGen first.Leads name link →
      second.target? link = first.target? link) :
    second.primitive? (.named name) = first.primitive? (.named name) := by
  ext type
  rw [primitive_eq_some_iff_finds, primitive_eq_some_iff_finds]
  refine finds_congr ?_
  rintro _ ⟨⟩
  exact same

/-- A name stands for what the names that it leads to stand for. -/
theorem primitive_along (path : Relation.ReflTransGen table.Leads name last) :
    table.primitive? (.named name) = table.primitive? (.named last) := by
  induction path with
  | refl => rfl
  | tail _ leads ih =>
    rw [ih]
    ext type
    rw [primitive_eq_some_iff_finds, primitive_eq_some_iff_finds, Finds.step_iff leads]

end AliasTable

/-- A scope has an alias of its own of some name. -/
def Scope.DeclaresAlias (scope : Scope) (name : String) : Prop :=
  ∃ decl ∈ scope.format.types, decl.name = name ∧ decl.carries = false

namespace Module

variable {module : Module} {path : String} {scope : Scope}

theorem aliases_of_scope (inside : path ≠ "") (found : module.scope? path = some scope) :
    scope.aliases = .ofTypes (module.root.types ++ scope.format.types) := by
  obtain ⟨format, -, shape⟩ := Option.bind_eq_some_iff.mp found
  rw [if_neg (by simpa using inside)] at shape
  cases shape
  rfl

/-- Where a nested scope has no alias of its own, it has the one of the root. -/
theorem target_of_undeclared (inside : path ≠ "") (found : module.scope? path = some scope)
    {name : String} (undeclared : ¬ scope.DeclaresAlias name) :
    scope.aliases.target? name = module.rootScope.aliases.target? name := by
  have own : (AliasTable.ofTypes scope.format.types).target? name = none := by
    rw [AliasTable.target_eq_none_iff]
    intro decl member named
    by_contra plain
    exact undeclared ⟨decl, member, named, Bool.not_eq_true _ ▸ plain⟩
  rw [aliases_of_scope inside found, AliasTable.target_append, own, Option.none_or]
  rfl

/-- What a name of the root stands for in a nested scope. If the scope declares no alias of a name
on the way from it through the aliases of the root, it stands for the same primitive as in the root,
or for none as there. Along the way, down to the first name that the scope declares as an alias, it
stands for what the names passed and that name stand for in the scope. -/
theorem primitive_of_rootAlias (inside : path ≠ "") (found : module.scope? path = some scope)
    (name : String) :
    ((∀ link, Relation.ReflTransGen module.rootScope.aliases.Leads name link →
        ¬ scope.DeclaresAlias link) →
      scope.primitive? (.named name) = module.rootScope.primitive? (.named name)) ∧
    ∀ link, Relation.ReflTransGen (fun earlier later => ¬ scope.DeclaresAlias earlier ∧
        module.rootScope.aliases.Leads earlier later) name link →
      scope.primitive? (.named name) = scope.primitive? (.named link) := by
  constructor
  · intro undeclared
    exact AliasTable.primitive_congr fun link path =>
      target_of_undeclared inside found (undeclared link path)
  · intro link path
    refine AliasTable.primitive_along (Relation.ReflTransGen.mono ?_ _ _ path)
    rintro earlier later ⟨undeclared, leads⟩
    exact (target_of_undeclared inside found undeclared).trans leads

/-- Of two aliases of the root, one leads past all that the scope declares and one to a name that it
declares anew. -/
theorem primitive_of_rootAlias_shadowed :
    let inner : Format :=
      { name := "inner", order := .little,
        types := [⟨"word_t", .primitive .u4⟩, ⟨"size_t", .primitive .u1⟩] }
    let module : Module :=
      { root :=
          { name := "top", order := .little,
            types := [⟨"mark_t", .named "half_t"⟩, ⟨"half_t", .primitive .u2⟩,
              ⟨"count_t", .named "word_t"⟩, ⟨"word_t", .primitive .u8⟩] },
        nested := [("in", inner)] }
    ∃ scope, module.scope? "in" = some scope ∧
      scope.primitive? (.named "mark_t") = module.rootScope.primitive? (.named "mark_t") ∧
      scope.primitive? (.named "count_t") = scope.primitive? (.named "word_t") := by
  intro inner module
  let scope : Scope :=
    { module, path := "in", format := inner
      aliases := .ofTypes (module.root.types ++ inner.types) }
  have found : module.scope? "in" = some scope := rfl
  have inside : "in" ≠ "" := by decide
  have declared : ∀ name, scope.DeclaresAlias name → name = "word_t" ∨ name = "size_t" := by
    rintro name ⟨decl, member, rfl, -⟩
    have names : ∀ decl ∈ inner.types, decl.name = "word_t" ∨ decl.name = "size_t" := by decide
    exact names decl member
  have passed : ∀ link, Relation.ReflTransGen module.rootScope.aliases.Leads "mark_t" link →
      link = "mark_t" ∨ link = "half_t" := by
    intro link path
    induction path with
    | refl => exact .inl rfl
    | tail _ leads ih =>
      rcases ih with rfl | rfl
      · have target : module.rootScope.aliases.target? "mark_t" = some (.named "half_t") := by
          decide
        cases target.symm.trans leads
        exact .inr rfl
      · have target : module.rootScope.aliases.target? "half_t" = some (.primitive .u2) := by
          decide
        cases target.symm.trans leads
  refine ⟨scope, found, (primitive_of_rootAlias inside found "mark_t").1 ?_,
    (primitive_of_rootAlias inside found "count_t").2 "word_t" (.single ⟨?_, ?_⟩)⟩
  · intro link path own
    rcases passed link path with rfl | rfl <;> exact absurd (declared _ own) (by decide)
  · exact fun own => absurd (declared _ own) (by decide)
  · change module.rootScope.aliases.target? "count_t" = some (.named "word_t")
    decide

/-- An alias of the root for a name that the scope declares anew: the root has two bytes for it, the
scope four. -/
theorem rootAlias_captured :
    let inner : Format :=
      { name := "inner", order := .little, types := [⟨"word_t", .primitive .u4⟩] }
    let root : Format :=
      { name := "top", order := .little,
        types := [⟨"size_t", .named "word_t"⟩, ⟨"word_t", .primitive .u2⟩, ⟨"in", .embed inner⟩] }
    root.violation? = none ∧ ∃ module scope, ofFormat root = .ok module ∧
      module.scope? "in" = some scope ∧
      (∃ decl ∈ root.types, decl.name = "size_t" ∧ decl.carries = false) ∧
      (∀ decl ∈ scope.format.types, decl.name ≠ "size_t") ∧
      module.rootScope.primitive? (.named "size_t") = some .u2 ∧
      scope.primitive? (.named "size_t") = some .u4 := by
  intro inner root
  have listable : inner.IsListable := ⟨by decide, by decide⟩
  have path : pathOf root "in" = "in" := by
    change (Name.relativeTo "top" "in").getD "in" = "in"
    decide
  have built : ofFormat root = .ok { root, nested := [("in", inner)] } := by
    refine ofFormat_eq_ok.mpr ⟨rfl, ?_⟩
    rw [addScopes_bare (by decide), addScopes_bare (by decide), addScopes_embed _ _ _ listable,
      path]
    rfl
  have carried : ∀ name, (AliasTable.ofTypes [⟨"in", .embed inner⟩]).target? name = none := by
    refine fun name => AliasTable.target_eq_none_iff.mpr fun decl member _ => ?_
    rw [List.mem_singleton.mp member]
    exact TypeDecl.carries_embed _ _
  have parted : root.types =
      [⟨"size_t", .named "word_t"⟩, ⟨"word_t", .primitive .u2⟩] ++ [⟨"in", .embed inner⟩] := rfl
  have size : (AliasTable.ofTypes root.types).target? "size_t" = some (.named "word_t") := by
    rw [parted, AliasTable.target_append, carried, Option.none_or]
    decide
  have word : (AliasTable.ofTypes root.types).target? "word_t" = some (.primitive .u2) := by
    rw [parted, AliasTable.target_append, carried, Option.none_or]
    decide
  have own : (AliasTable.ofTypes (root.types ++ inner.types)).target? "word_t" =
      some (.primitive .u4) := by
    have new : (AliasTable.ofTypes inner.types).target? "word_t" = some (.primitive .u4) := by
      decide
    rw [AliasTable.target_append, new, Option.some_or]
  have shared : (AliasTable.ofTypes (root.types ++ inner.types)).target? "size_t" =
      some (.named "word_t") := by
    have old : (AliasTable.ofTypes inner.types).target? "size_t" = none := by decide
    rw [AliasTable.target_append, old, Option.none_or, size]
  have leads : ∀ name next, LeadsTo root.types name next → name = "size_t" ∧ next = "word_t" := by
    rintro name next ⟨decl, member, rfl, target, bare⟩
    simp only [root, List.mem_cons, List.not_mem_nil, or_false] at member
    rcases member with rfl | rfl | rfl
    · cases target
      exact ⟨rfl, rfl⟩
    · cases target
    · rw [Listing.payload_embed] at bare
      cases bare
  have valid : root.violation? = none := by
    refine root.violation_eq_none_iff_wellFormed.mpr ⟨by decide, by decide, by decide, by decide,
      by simp [root, TypeRef.embed_eq, TypeRef.scopeMark], by simp [root], by simp [root],
      by simp [root], by simp [root], by simp [root], ?_, ?_⟩
    · intro name next edge
      obtain ⟨-, rfl⟩ := leads name next edge
      exact .inr (.inl ⟨_, List.mem_cons_of_mem _ List.mem_cons_self, rfl⟩)
    · intro name cycle
      obtain ⟨next, first, back⟩ := Relation.TransGen.head'_iff.mp cycle
      obtain ⟨rfl, rfl⟩ := leads name next first
      rcases back.cases_head with same | ⟨other, again, -⟩
      · exact absurd same (by decide)
      · exact absurd (leads _ _ again).1 (by decide)
  refine ⟨valid, _, _, built, rfl, ⟨_, List.mem_cons_self, rfl, by decide⟩, by decide, ?_, ?_⟩
  · exact AliasTable.primitive_eq_some_iff_finds.mpr (.next size (.next word (.primitive .u2)))
  · exact AliasTable.primitive_eq_some_iff_finds.mpr (.next shared (.next own (.primitive .u4)))

end Module

end FormatCompiler
