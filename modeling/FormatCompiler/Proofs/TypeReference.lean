import FormatCompiler.Proofs.ScopeTable

/-!
Types declared and structures found. A type that is no alias is looked up by its name among the
paths of the nested scopes: as a path, as a path behind the name of the root, and as the end of a
path. So a type that carries a format leads to its own scope unless its name is also the path of
another one, and a name that is not declared here leads outside only if it fits no path.
-/

namespace FormatCompiler

set_option autoImplicit false

namespace Format

/-- There is a nested scope at a path. -/
def HasScope (root : Format) (path : String) : Prop :=
  ∃ decl ∈ root.carriers, Module.pathOf root decl.name = path

/-- The nested scope that a name means, by its path: the one at the name; if there is none, the one
that the name is behind that of the root; if there is none either, the least that the name ends. -/
inductive Means (root : Format) (name : String) : String → Prop
  | itself (here : root.HasScope name) : Means root name name
  | rooted {path : String} (elsewhere : ¬ root.HasScope name) (there : root.HasScope path)
      (behind : name = root.name ++ "::" ++ path) : Means root name path
  | ending {path : String} (elsewhere : ¬ root.HasScope name)
      (unrooted : ∀ inner, root.HasScope inner → name ≠ root.name ++ "::" ++ inner)
      (there : root.HasScope path) (ends : IsNamedBy path name)
      (least : ∀ other, root.HasScope other → IsNamedBy other name → path ≤ other) :
      Means root name path

/-- The type whose format is kept at a path, the last one that has it. -/
def LastAt (root : Format) (path : String) (decl : TypeDecl) : Prop :=
  ∃ front back, root.types = front ++ decl :: back ∧ decl.carries = true ∧
    Module.pathOf root decl.name = path ∧
      ∀ later ∈ back, later.carries = true → Module.pathOf root later.name ≠ path

end Format

theorem AliasTable.resolve_of_bare {types : List TypeDecl} {name : String}
    (bare : ∀ decl ∈ types, decl.name = name → decl.carries = true) :
    (ofTypes types).resolve (.named name) = .opaqueName name :=
  resolve_of_target_none (target_eq_none_iff.mpr bare)

namespace Format

variable {root : Format} {decl other : TypeDecl}

theorem hasScope_of_mem (declared : decl ∈ root.carriers) :
    root.HasScope (Module.pathOf root decl.name) :=
  ⟨decl, declared, rfl⟩

theorem pathOf_behind (root : Format) (name : String) :
    Module.pathOf root (root.name ++ "::" ++ name) = name := by
  rw [Module.pathOf, Name.relativeTo_eq_some_iff.mpr rfl, Option.getD_some]

/-- A type means its own path, unless it is behind the name of the root and another one is called
like it behind that name once more. -/
theorem means_of_mem (declared : decl ∈ root.carriers)
    (free : ∀ other ∈ root.carriers, other.name = root.name ++ "::" ++ decl.name →
      ∀ deeper, decl.name ≠ root.name ++ "::" ++ deeper) :
    root.Means decl.name (Module.pathOf root decl.name) := by
  have there := hasScope_of_mem declared
  cases relative : Name.relativeTo root.name decl.name with
  | none =>
    have path : Module.pathOf root decl.name = decl.name := by rw [Module.pathOf, relative]; rfl
    rw [path] at there ⊢
    exact .itself there
  | some inner =>
    have behind := Name.relativeTo_eq_some_iff.mp relative
    have path : Module.pathOf root decl.name = inner := by rw [Module.pathOf, relative]; rfl
    rw [path] at there ⊢
    refine .rooted ?_ there behind
    rintro ⟨other, member, same⟩
    -- the path of a type that is behind the name of the root belongs to one that is so twice
    cases deeper : Name.relativeTo root.name other.name with
    | none =>
      rw [Module.pathOf, deeper, Option.getD_none] at same
      rw [same, relative] at deeper
      cases deeper
    | some rest =>
      rw [Module.pathOf, deeper, Option.getD_some] at same
      rw [same, Name.relativeTo_eq_some_iff] at deeper
      exact free other member deeper inner behind

theorem means_captured {name : String} (member : other ∈ root.carriers)
    (behind : other.name = root.name ++ "::" ++ name) : root.Means name name := by
  refine .itself ⟨other, member, ?_⟩
  rw [behind, pathOf_behind]

theorem lastAt_of_unique (member : decl ∈ root.carriers)
    (distinct : (root.types.map TypeDecl.name).Nodup)
    (unique : ∀ other ∈ root.carriers,
      Module.pathOf root other.name = Module.pathOf root decl.name → other.name = decl.name) :
    root.LastAt (Module.pathOf root decl.name) decl := by
  obtain ⟨declared, carries⟩ := List.mem_filter.mp member
  obtain ⟨front, back, shape⟩ := List.append_of_mem declared
  refine ⟨front, back, shape, carries, rfl, ?_⟩
  intro later behind carriesToo same
  have listed : later ∈ root.types := by
    rw [shape]
    exact List.mem_append_right _ (List.mem_cons_of_mem _ behind)
  have equal : later = decl := decl_unique distinct listed declared
    (unique later (List.mem_filter.mpr ⟨listed, carriesToo⟩) same)
  have once := List.Nodup.of_map _ (shape ▸ distinct)
  exact (List.nodup_cons.mp (List.nodup_append.mp once).2.1).1 (equal ▸ behind)

/-- A type that is behind the name of the root twice over shares its path with no other. -/
theorem lastAt_captured {name deeper : String} (member : other ∈ root.carriers)
    (distinct : (root.types.map TypeDecl.name).Nodup)
    (behind : other.name = root.name ++ "::" ++ name) (inner : name = root.name ++ "::" ++ deeper) :
    root.LastAt name other := by
  have path : Module.pathOf root other.name = name := by rw [behind, pathOf_behind]
  rw [← path]
  refine lastAt_of_unique member distinct ?_
  intro rival _ same
  rcases (Module.pathOf_eq_iff root _ _).mp same with equal | ⟨-, alone⟩ | ⟨called, alone⟩
  · exact equal
  · rw [Name.relativeTo_eq_some_iff.mpr behind] at alone
    cases alone
  · rw [behind, String.append_right_inj] at called
    rw [← called, Name.relativeTo_eq_some_iff.mpr inner] at alone
    cases alone

end Format

namespace Module

/-- In a list in order the first that has a property is the least. -/
theorem find_eq_some_iff_least {paths : List String} (ordered : paths.Pairwise (· < ·))
    {holds : String → Bool} {path : String} :
    paths.find? holds = some path ↔
      path ∈ paths ∧ holds path = true ∧ ∀ other ∈ paths, holds other = true → path ≤ other := by
  induction paths with
  | nil => simp
  | cons first rest ih =>
    obtain ⟨before, tail⟩ := List.pairwise_cons.mp ordered
    cases here : holds first with
    | true =>
      rw [List.find?_cons_of_pos here, Option.some.injEq]
      constructor
      · rintro rfl
        refine ⟨List.mem_cons_self, here, List.forall_mem_cons.mpr ⟨fun _ => le_rfl, ?_⟩⟩
        exact fun other member _ => (before other member).le
      · rintro ⟨member, -, least⟩
        rcases List.mem_cons.mp member with rfl | behind
        · rfl
        · exact absurd (least first List.mem_cons_self here) (not_le.mpr (before path behind))
    | false =>
      rw [List.find?_cons_of_neg (by simp [here]), ih tail]
      simp only [List.mem_cons, forall_eq_or_imp, here, Bool.false_eq_true, false_implies, true_and]
      refine and_congr_left fun found => (or_iff_right ?_).symm
      rintro rfl
      rw [here] at found
      cases found.1

section

variable {root : Format} {module : Module} {name : String}

theorem scopeNamed_of_mem (here : name ∈ module.paths) : module.scopeNamed? name = some name := by
  simp [scopeNamed?, here]

/-- Past the first place to look, the path behind the name of the root counts. -/
theorem scopeNamed_of_not_mem (elsewhere : name ∉ module.paths) :
    module.scopeNamed? name =
      match (Name.relativeTo module.root.name name).filter module.paths.contains with
      | some path => some path
      | none => module.paths.find? fun path => Name.refersTo path name := by
  have absent : ¬ module.paths.contains name = true := by simpa using elsewhere
  exact if_neg absent

theorem scopeNamed_of_relativeTo {path : String} (elsewhere : name ∉ module.paths)
    (behind : Name.relativeTo module.root.name name = some path) (there : path ∈ module.paths) :
    module.scopeNamed? name = some path := by
  rw [scopeNamed_of_not_mem elsewhere, behind, Option.filter_some, if_pos (by simpa using there)]

theorem scopeNamed_of_neither (elsewhere : name ∉ module.paths)
    (unrooted : ∀ inner ∈ module.paths, Name.relativeTo module.root.name name ≠ some inner) :
    module.scopeNamed? name = module.paths.find? fun path => Name.refersTo path name := by
  have none : (Name.relativeTo module.root.name name).filter module.paths.contains = none := by
    rw [Option.filter_eq_none_iff]
    intro inner behind
    simpa using fun there => unrooted inner there behind
  rw [scopeNamed_of_not_mem elsewhere, none]

variable (built : ofFormat root = .ok module)
include built

theorem mem_paths_iff_hasScope (path : String) : path ∈ module.paths ↔ root.HasScope path :=
  mem_paths_iff built path

theorem ordered_paths : module.paths.Pairwise (· < ·) :=
  addScopes_ordered (ofFormat_eq_ok.mp built).2 List.Pairwise.nil

theorem scopeNamed_of_unrooted (elsewhere : ¬ root.HasScope name)
    (unrooted : ∀ inner, root.HasScope inner → name ≠ root.name ++ "::" ++ inner) :
    module.scopeNamed? name = module.paths.find? fun path => Name.refersTo path name := by
  apply scopeNamed_of_neither
  · rwa [mem_paths_iff_hasScope built]
  · intro inner there
    rw [mem_paths_iff_hasScope built] at there
    rw [(ofFormat_eq_ok.mp built).1, ne_eq, Name.relativeTo_eq_some_iff]
    exact unrooted inner there

theorem scopeNamed_eq_some_iff {path : String} :
    module.scopeNamed? name = some path ↔ root.Means name path := by
  have listed := mem_paths_iff_hasScope built
  have ordered := ordered_paths built
  have same : module.root = root := (ofFormat_eq_ok.mp built).1
  have rooted : ∀ inner, root.HasScope inner → name = root.name ++ "::" ++ inner →
      ¬ root.HasScope name → module.scopeNamed? name = some inner := by
    intro inner there behind elsewhere
    apply scopeNamed_of_relativeTo
    · rwa [listed]
    · rwa [same, Name.relativeTo_eq_some_iff]
    · rwa [listed]
  constructor
  · intro found
    by_cases here : root.HasScope name
    · rw [scopeNamed_of_mem ((listed name).mpr here)] at found
      cases found
      exact .itself here
    · by_cases unrooted : ∀ inner, root.HasScope inner → name ≠ root.name ++ "::" ++ inner
      · rw [scopeNamed_of_unrooted built here unrooted, find_eq_some_iff_least ordered] at found
        simp only [listed, Name.refersTo_iff] at found
        obtain ⟨there, ends, least⟩ := found
        exact .ending here unrooted there ends least
      · push Not at unrooted
        obtain ⟨inner, there, behind⟩ := unrooted
        rw [rooted inner there behind here] at found
        cases found
        exact .rooted here there behind
  · intro means
    cases means with
    | itself here => exact scopeNamed_of_mem ((listed name).mpr here)
    | rooted elsewhere there behind => exact rooted path there behind elsewhere
    | ending elsewhere unrooted there ends least =>
      rw [scopeNamed_of_unrooted built elsewhere unrooted, find_eq_some_iff_least ordered]
      simp only [listed, Name.refersTo_iff]
      exact ⟨there, ends, least⟩

theorem scopeNamed_eq_none_iff :
    module.scopeNamed? name = none ↔
      ∀ path, root.HasScope path → ¬ IsNamedBy path name ∧ name ≠ root.name ++ "::" ++ path := by
  constructor
  · intro lost path there
    have meaningless : ∀ path, ¬ root.Means name path := by
      intro path means
      rw [(scopeNamed_eq_some_iff built).mpr means] at lost
      cases lost
    have elsewhere : ¬ root.HasScope name := fun here => meaningless name (.itself here)
    have unrooted : ∀ inner, root.HasScope inner → name ≠ root.name ++ "::" ++ inner :=
      fun inner there behind => meaningless inner (.rooted elsewhere there behind)
    refine ⟨fun named => ?_, unrooted path there⟩
    rw [scopeNamed_of_unrooted built elsewhere unrooted, List.find?_eq_none] at lost
    exact lost path ((mem_paths_iff_hasScope built path).mpr there)
      ((Name.refersTo_iff path name).mpr named)
  · intro apart
    rw [Option.eq_none_iff_forall_ne_some]
    intro path found
    cases (scopeNamed_eq_some_iff built).mp found with
    | itself here => exact (apart name here).1 (Or.inl rfl)
    | rooted elsewhere there behind => exact (apart path there).2 behind
    | ending elsewhere unrooted there ends least => exact (apart path there).1 ends

/-- What is kept at a path below the root. -/
theorem format_of_lastAt {path : String} {decl : TypeDecl} (last : root.LastAt path decl)
    (inside : path ≠ "") :
    ∃ format, decl.carried? = some format ∧ module.format? path = some format := by
  obtain ⟨front, back, shape, carries, rfl, later⟩ := last
  have stored := lookup_addScopes_last (shape ▸ (ofFormat_eq_ok.mp built).2) carries later
  rwa [format?, if_neg (by simpa using inside)]

section

variable {field : Field} (unswitched : field.switchOn = none) (type : field.type = .named name)
  (bare : ∀ decl ∈ root.types, decl.name = name → decl.carries = true)
include unswitched type bare

/-- A field whose type is no alias is what its name means. -/
theorem fieldStructure_of_bare :
    module.rootScope.fieldStructure? field =
      match module.scopeNamed? name with
      | some path => some (.nested path)
      | none => some (.external name) := by
  have same : module.root = root := (ofFormat_eq_ok.mp built).1
  have left : module.rootScope.aliases.resolve field.type = .opaqueName name := by
    rw [type, rootScope, same]
    exact AliasTable.resolve_of_bare bare
  rw [Scope.fieldStructure?, unswitched, Scope.structure?, left]
  rfl

theorem fieldStructure_nested_iff {path : String} :
    module.rootScope.fieldStructure? field = some (.nested path) ↔ root.Means name path := by
  rw [fieldStructure_of_bare built unswitched type bare, ← scopeNamed_eq_some_iff built]
  cases module.scopeNamed? name <;> simp

theorem fieldStructure_external_iff :
    module.rootScope.fieldStructure? field = some (.external name) ↔
      ∀ path, root.HasScope path → ¬ IsNamedBy path name ∧ name ≠ root.name ++ "::" ++ path := by
  rw [fieldStructure_of_bare built unswitched type bare, ← scopeNamed_eq_none_iff built]
  cases module.scopeNamed? name <;> simp

end

end

/-- What a named type that is no alias leads to from the root. The name of a type that carries a
format leads to the path of the type; its format is kept there unless the path is the root's or a
later type has it too. If the type is behind the name of the root, and another one is called like it
behind that name once more, it leads to the other one. A name that is not declared, the root's own
or what an import provides, leads outside exactly if it is not a path of a scope, nor one behind the
name of the root, nor the end of one. -/
theorem fieldStructure_named {root : Format} {module : Module} (valid : root.violation? = none)
    (built : ofFormat root = .ok module) {field : Field} {name : String}
    (unswitched : field.switchOn = none) (type : field.type = .named name) :
    (∀ decl ∈ root.carriers, decl.name = name →
      ((∀ other ∈ root.carriers, other.name = root.name ++ "::" ++ name →
          ∀ deeper, name ≠ root.name ++ "::" ++ deeper) →
        module.rootScope.fieldStructure? field = some (.nested (pathOf root name)) ∧
        (name ≠ root.name ++ "::" → root.LastAt (pathOf root name) decl →
          ∃ format, decl.carried? = some format ∧
            module.format? (pathOf root name) = some format)) ∧
      ∀ other ∈ root.carriers, ∀ deeper, other.name = root.name ++ "::" ++ name →
        name = root.name ++ "::" ++ deeper →
        module.rootScope.fieldStructure? field = some (.nested name) ∧
        ∃ format, other.carried? = some format ∧ module.format? name = some format) ∧
    ((∀ decl ∈ root.types, decl.name ≠ name) →
      (module.rootScope.fieldStructure? field = some (.external name) ↔
        ∀ path, root.HasScope path → ¬ IsNamedBy path name ∧ name ≠ root.name ++ "::" ++ path) ∧
      ∀ path, module.rootScope.fieldStructure? field = some (.nested path) ↔
        root.Means name path) := by
  obtain ⟨named, distinct⟩ := Format.typeNames_of_valid valid
  constructor
  · rintro decl member rfl
    obtain ⟨declared, carries⟩ := List.mem_filter.mp member
    have inhabited := named decl declared
    have bare : ∀ other ∈ root.types, other.name = decl.name → other.carries = true := by
      intro other listed same
      rwa [decl_unique distinct listed declared same]
    have leads : ∀ {path}, root.Means decl.name path →
        module.rootScope.fieldStructure? field = some (.nested path) :=
      (fieldStructure_nested_iff built unswitched type bare).mpr
    constructor
    · intro free
      refine ⟨leads (Format.means_of_mem member free), fun proper last => ?_⟩
      exact format_of_lastAt built last (mt (pathOf_eq_root_iff root inhabited).mp proper)
    · intro other listed deeper behind inner
      refine ⟨leads (Format.means_captured listed behind), ?_⟩
      exact format_of_lastAt built (Format.lastAt_captured listed distinct behind inner) inhabited
  · intro undeclared
    have bare : ∀ decl ∈ root.types, decl.name = name → decl.carries = true :=
      fun decl listed same => absurd same (undeclared decl listed)
    exact ⟨fieldStructure_external_iff built unswitched type bare,
      fun _ => fieldStructure_nested_iff built unswitched type bare⟩

/-- A type behind the name of the root leads to its own scope, and an import outside, past a path
that begins with its name. -/
theorem fieldStructure_named_import :
    let first : Format := { name := "first", order := .little }
    let second : Format := { name := "second", order := .big }
    let own : Field := { id := "x", type := .named "top::a" }
    let imported : Field := { id := "y", type := .named "common" }
    let root : Format :=
      { name := "top", order := .little, imports := ["lib/common.ksir"],
        types := [⟨"top::a", .embed first⟩, ⟨"common::inner", .embed second⟩],
        fields := [own, imported] }
    root.violation? = none ∧ ∃ module, ofFormat root = .ok module ∧
      module.rootScope.fieldStructure? own = some (.nested "a") ∧ module.format? "a" = some first ∧
      module.rootScope.fieldStructure? imported = some (.external "common") := by
  intro first second own imported root
  have firstListable : first.IsListable := ⟨by decide, by decide⟩
  have secondListable : second.IsListable := ⟨by decide, by decide⟩
  have valid : root.violation? = none := by
    refine Format.violation_of_carriers (by decide) (by decide) ?_ ?_
    · simp only [List.forall_mem_cons]
      exact ⟨⟨by decide, first, rfl⟩, ⟨by decide, second, rfl⟩, by simp⟩
    · simp only [List.forall_mem_cons]
      refine ⟨⟨"x", "top::a", by decide, by decide, ?_, rfl⟩,
        ⟨"y", "common", by decide, by decide, ?_, rfl⟩, by simp⟩
      · exact Or.inr (Or.inl ⟨_, List.mem_cons_self, rfl⟩)
      · exact Or.inr (Or.inr ⟨_, List.mem_singleton_self _, by decide⟩)
  have paths : pathOf root "top::a" = "a" ∧ pathOf root "common::inner" = "common::inner" := by
    change (Name.relativeTo "top" "top::a").getD "top::a" = "a" ∧
      (Name.relativeTo "top" "common::inner").getD "common::inner" = "common::inner"
    decide
  have built : ofFormat root =
      .ok { root, nested := [("a", first), ("common::inner", second)] } := by
    refine ofFormat_eq_ok.mpr ⟨rfl, ?_⟩
    rw [addScopes_embed _ _ _ firstListable, addScopes_embed _ _ _ secondListable, paths.1, paths.2]
    rfl
  have carriers : root.carriers = root.types := by
    simp [Format.carriers, root, TypeDecl.carries_embed]
  have last : root.LastAt (pathOf root "top::a") ⟨"top::a", .embed first⟩ := by
    refine ⟨[], [⟨"common::inner", .embed second⟩], rfl, TypeDecl.carries_embed _ _, rfl, ?_⟩
    refine List.forall_mem_singleton.mpr fun _ => ?_
    rw [paths.1, paths.2]
    decide
  have free : ∀ other ∈ root.carriers, other.name = root.name ++ "::" ++ "top::a" →
      ∀ deeper, "top::a" ≠ root.name ++ "::" ++ deeper := by
    rw [carriers]
    intro other member called
    rcases List.mem_pair.mp member with rfl | rfl
    · exact absurd called (by decide)
    · exact absurd called (by decide)
  have ownLeads := (@fieldStructure_named root _ valid built own _ rfl rfl).1
  obtain ⟨ownScope, kept⟩ :=
    (ownLeads ⟨"top::a", .embed first⟩ (by simp [carriers, root]) rfl).1 free
  obtain ⟨format, carried, stored⟩ := kept (by decide) last
  rw [TypeDecl.carried_embed _ _ firstListable] at carried
  rw [paths.1] at ownScope stored
  refine ⟨valid, _, built, ownScope, stored.trans carried.symm, ?_⟩
  refine ((fieldStructure_named valid built rfl rfl).2 ?_).1.mpr ?_
  · intro decl member
    rcases List.mem_pair.mp member with rfl | rfl
    · decide
    · decide
  · rintro _ ⟨decl, member, rfl⟩
    rw [carriers] at member
    rw [← Name.refersTo_iff]
    rcases List.mem_pair.mp member with rfl | rfl
    · rw [paths.1]
      decide
    · rw [paths.2]
      decide

/-- The name of a type is the path of another one, and what an import provides is the end of a path:
both lead to a scope that is not the one declared. -/
theorem fieldStructure_captured :
    let first : Format := { name := "first", order := .little }
    let second : Format := { name := "second", order := .big }
    let third : Format := { name := "third", order := .big }
    let own : Field := { id := "x", type := .named "top::a" }
    let imported : Field := { id := "y", type := .named "common" }
    let root : Format :=
      { name := "top", order := .little, imports := ["common.ksir"],
        types :=
          [⟨"top::a", .embed first⟩, ⟨"top::top::a", .embed second⟩,
            ⟨"outer::common", .embed third⟩],
        fields := [own, imported] }
    root.violation? = none ∧ ∃ module, ofFormat root = .ok module ∧
      module.rootScope.fieldStructure? own = some (.nested "top::a") ∧
      module.format? "top::a" = some second ∧
      TypeDecl.carried? ⟨"top::a", .embed first⟩ = some first ∧ first ≠ second ∧
      module.rootScope.fieldStructure? imported = some (.nested "outer::common") ∧
      (∀ decl ∈ root.types, decl.name ≠ "common") ∧ importStem "common.ksir" = "common" := by
  intro first second third own imported root
  have firstListable : first.IsListable := ⟨by decide, by decide⟩
  have secondListable : second.IsListable := ⟨by decide, by decide⟩
  have thirdListable : third.IsListable := ⟨by decide, by decide⟩
  have valid : root.violation? = none := by
    refine Format.violation_of_carriers (by decide) (by decide) ?_ ?_
    · simp only [List.forall_mem_cons]
      exact ⟨⟨by decide, first, rfl⟩, ⟨by decide, second, rfl⟩, ⟨by decide, third, rfl⟩, by simp⟩
    · simp only [List.forall_mem_cons]
      refine ⟨⟨"x", "top::a", by decide, by decide, ?_, rfl⟩,
        ⟨"y", "common", by decide, by decide, ?_, rfl⟩, by simp⟩
      · exact Or.inr (Or.inl ⟨_, List.mem_cons_self, rfl⟩)
      · exact Or.inr (Or.inr ⟨_, List.mem_singleton_self _, by decide⟩)
  have paths : pathOf root "top::a" = "a" ∧ pathOf root "top::top::a" = "top::a" ∧
      pathOf root "outer::common" = "outer::common" := by
    change (Name.relativeTo "top" "top::a").getD "top::a" = "a" ∧
      (Name.relativeTo "top" "top::top::a").getD "top::top::a" = "top::a" ∧
      (Name.relativeTo "top" "outer::common").getD "outer::common" = "outer::common"
    decide
  have built : ofFormat root =
      .ok { root, nested := [("a", first), ("outer::common", third), ("top::a", second)] } := by
    refine ofFormat_eq_ok.mpr ⟨rfl, ?_⟩
    rw [addScopes_embed _ _ _ firstListable, addScopes_embed _ _ _ secondListable,
      addScopes_embed _ _ _ thirdListable, paths.1, paths.2.1, paths.2.2]
    rfl
  have bare : ∀ name, ∀ decl ∈ root.types, decl.name = name → decl.carries = true := by
    simp [root, TypeDecl.carries_embed]
  refine ⟨valid, _, built, ?_, rfl, TypeDecl.carried_embed _ _ firstListable, by decide, ?_,
    by simp [root], by decide⟩
  · rw [fieldStructure_of_bare built rfl rfl (bare "top::a")]
    rfl
  · rw [fieldStructure_of_bare built rfl rfl (bare "common")]
    decide

end Module

end FormatCompiler
