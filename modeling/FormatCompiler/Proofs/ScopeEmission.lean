import Mathlib.Data.List.Nodup
import Mathlib.Logic.Relation
import FormatCompiler.Module.Subset
import FormatCompiler.Proofs.ScopePath
import FormatCompiler.Proofs.ScopeTable
import FormatCompiler.Proofs.ScopeTree

/-!
What the fold of the scopes comes upon, and under which names. A scope is reached from the root
through the scopes around it and is then met once, under the names on the way. A reference to it is
made from the segments of its path instead. Both agree for all scopes exactly when every path is
clear and every scope stands in the root or in another scope.
-/

namespace FormatCompiler.Module

set_option autoImplicit false

open Relation (ReflTransGen TransGen)

variable {module : Module}

/-- The scopes met from one inward, by path, each with the names from that one down to it. -/
def visit (scope : Scope) (inside : List (List (String × List String))) :
    List (String × List String) :=
  (scope.path, [scope.name]) ::
    inside.flatten.map fun (path, names) => (path, scope.name :: names)

/-- The scopes that the fold of a module meets, each with the names from the root down to it. -/
def visits (module : Module) : List (String × List String) :=
  module.foldScopes visit

/-- Every scope is met once and under the names that a reference to it has, so that a reference to a
nested scope is to one that is met. -/
structure EmittedAsReferenced (module : Module) : Prop where
  once : ∀ scope ∈ module.scopes, (module.visits.map Prod.fst).count scope.path = 1
  named : ∀ visited ∈ module.visits, visited.2 = module.root.name :: Name.segments visited.1
  referred : ∀ scope ∈ module.scopes, ∀ type path, scope.structure? type = some (.nested path) →
    (path, module.root.name :: Name.segments path) ∈ module.visits

theorem inside_rightUnique : Relator.RightUnique module.Inside := by
  intro inner outer other inside insideOther
  rw [← (mem_children_iff.mp inside).2, ← (mem_children_iff.mp insideOther).2]

/-- Two scopes directly inside one have nothing below them in common. -/
theorem eq_of_below_both (proper : "" ∉ module.paths) {path first second outer : String}
    (one : module.Inside first outer) (other : module.Inside second outer)
    (belowOne : ReflTransGen module.Inside path first)
    (belowOther : ReflTransGen module.Inside path second) : first = second := by
  have apart : ∀ {inner around : String}, module.Inside inner outer → module.Inside around outer →
      ReflTransGen module.Inside inner around → inner = around := by
    intro inner around inside insideToo below
    rcases below.cases_head with same | ⟨next, step, rest⟩
    · exact same
    · -- the only way on from the inner one leads out of both
      obtain rfl := inside_rightUnique step inside
      have cycle : TransGen module.Inside around around := TransGen.head' insideToo rest
      exact absurd cycle (not_inside_itself proper around)
  rcases ReflTransGen.total_of_right_unique inside_rightUnique belowOne belowOther with down | up
  · exact apart one other down
  · exact (apart other one up).symm

section

variable {emit : Scope → List (String × List String)}

theorem mem_emit_iff (solves : module.IsFold visit emit) {scope : Scope} {path : String}
    {names : List String} :
    (path, names) ∈ emit scope ↔ (path = scope.path ∧ names = [scope.name]) ∨
      ∃ child ∈ module.inner scope, ∃ rest, (path, rest) ∈ emit child ∧
        names = scope.name :: rest := by
  rw [solves scope]
  simp [visit, eq_comm (a := names), and_left_comm]

theorem emit_paths (solves : module.IsFold visit emit) (scope : Scope) :
    (emit scope).map Prod.fst =
      scope.path :: (module.inner scope).flatMap fun child => (emit child).map Prod.fst := by
  conv_lhs => rw [solves scope]
  simp [visit, List.flatMap, Function.comp_def, List.map_flatten]

/-- From a scope, the scopes below it are met. -/
theorem mem_emit_paths_iff (proper : "" ∉ module.paths) (solves : module.IsFold visit emit)
    (scope : Scope) (path : String) :
    path ∈ (emit scope).map Prod.fst ↔ ReflTransGen module.Inside path scope.path := by
  induction size : module.rank scope.path using Nat.strongRecOn generalizing scope with
  | ind size ih =>
    have each : ∀ child ∈ module.inner scope,
        (path ∈ (emit child).map Prod.fst ↔ ReflTransGen module.Inside path child.path) :=
      fun child member => ih _ (size ▸ rank_inner_lt proper member) child rfl
    rw [emit_paths solves, List.mem_cons, List.mem_flatMap, ReflTransGen.cases_tail_iff,
      eq_comm (a := scope.path)]
    apply or_congr_right
    constructor
    · rintro ⟨child, member, met⟩
      exact ⟨child.path, (each child member).mp met, child_of_mem_inner member⟩
    · rintro ⟨middle, below, inside⟩
      obtain ⟨child, found⟩ := scope_of_mem_paths (mem_children_iff.mp inside).1
      have member : child ∈ module.inner scope := List.mem_filterMap.mpr ⟨middle, inside, found⟩
      rw [← (scope_path found).1] at below
      exact ⟨child, member, (each child member).mpr below⟩

/-- From a scope, no scope is met twice. -/
theorem nodup_emit_paths (proper : "" ∉ module.paths) (distinct : module.paths.Nodup)
    (solves : module.IsFold visit emit) (scope : Scope) : ((emit scope).map Prod.fst).Nodup := by
  induction size : module.rank scope.path using Nat.strongRecOn generalizing scope with
  | ind size ih =>
    have inside : ∀ child ∈ module.inner scope, module.Inside child.path scope.path :=
      fun child member => child_of_mem_inner member
    have children : ((module.inner scope).map Scope.path).Nodup := by
      rw [inner_paths]
      exact distinct.filter _
    rw [emit_paths solves, List.nodup_cons, List.nodup_flatMap]
    refine ⟨?_, ?_, ?_⟩
    · intro again
      obtain ⟨child, member, met⟩ := List.mem_flatMap.mp again
      have below := (mem_emit_paths_iff proper solves child scope.path).mp met
      have cycle : TransGen module.Inside scope.path scope.path :=
        TransGen.tail' below (inside child member)
      exact not_inside_itself proper _ cycle
    · intro child member
      exact ih _ (size ▸ rank_inner_lt proper member) child rfl
    · refine (List.pairwise_map.mp children).imp_of_mem ?_
      intro first second one other differ path metOne metOther
      rw [mem_emit_paths_iff proper solves] at metOne metOther
      exact differ (eq_of_below_both proper (inside first one) (inside second other) metOne metOther)

end

/-- One scope inward, one more name on the way. -/
theorem descent_of_mem_inner (proper : "" ∉ module.paths) {scope child : Scope}
    (member : child ∈ module.inner scope) :
    Name.descent child.path = Name.descent scope.path ++ [child.name] := by
  obtain ⟨stored, around⟩ := mem_children_iff.mp (child_of_mem_inner member)
  have nested := ne_root_of_mem_paths proper stored
  have name : child.name = Name.short child.path := by
    simp [Scope.name, Scope.isRoot, nested]
  rw [Name.descent_inside nested, around, name]

/-- The names under which a scope is met from one around it are those on the way between. -/
theorem descent_of_mem_emit (proper : "" ∉ module.paths)
    {emit : Scope → List (String × List String)} (solves : module.IsFold visit emit)
    {scope : Scope} {path : String} {names : List String} (met : (path, names) ∈ emit scope) :
    ∃ rest, names = scope.name :: rest ∧ Name.descent path = Name.descent scope.path ++ rest := by
  induction size : module.rank scope.path using Nat.strongRecOn generalizing scope names with
  | ind size ih =>
    rcases (mem_emit_iff solves).mp met with ⟨rfl, rfl⟩ | ⟨child, member, below, metBelow, rfl⟩
    · exact ⟨[], rfl, (List.append_nil _).symm⟩
    · obtain ⟨rest, rfl, way⟩ := ih _ (size ▸ rank_inner_lt proper member) metBelow rfl
      refine ⟨_, rfl, ?_⟩
      rw [way, descent_of_mem_inner proper member, List.append_assoc, List.singleton_append]

/-- The fold meets the scopes below the root. -/
theorem mem_visits_paths_iff (proper : "" ∉ module.paths) (path : String) :
    path ∈ module.visits.map Prod.fst ↔ ReflTransGen module.Inside path "" :=
  mem_emit_paths_iff proper (isFold_foldFrom visit proper) module.rootScope path

theorem nodup_visits_paths (proper : "" ∉ module.paths) (distinct : module.paths.Nodup) :
    (module.visits.map Prod.fst).Nodup :=
  nodup_emit_paths proper distinct (isFold_foldFrom visit proper) module.rootScope

/-- The fold meets a scope under the name of the root and the names on the way. -/
theorem names_of_mem_visits (proper : "" ∉ module.paths) {path : String} {names : List String}
    (met : (path, names) ∈ module.visits) : names = module.root.name :: Name.descent path := by
  obtain ⟨rest, rfl, way⟩ := descent_of_mem_emit proper (isFold_foldFrom visit proper) met
  have top : module.rootScope.path = "" := rfl
  rw [way, top, Name.descent_root]
  rfl

/-- All scopes are below the root when each of them stands in the root or in another one. -/
theorem below_root_iff (proper : "" ∉ module.paths) :
    (∀ path ∈ module.paths, ReflTransGen module.Inside path "") ↔
      ∀ path ∈ module.paths, Name.enclosing path = "" ∨ Name.enclosing path ∈ module.paths := by
  constructor
  · intro below path member
    rcases (below path member).cases_head with root | ⟨outer, inside, rest⟩
    · exact absurd (root ▸ member) proper
    · rw [(mem_children_iff.mp inside).2]
      rcases rest.cases_head with root | ⟨_, further, -⟩
      · exact Or.inl root
      · exact Or.inr (mem_children_iff.mp further).1
  · intro enclosed path member
    induction size : path.length using Nat.strongRecOn generalizing path with
    | ind size ih =>
      have inside : module.Inside path (Name.enclosing path) := mem_children_iff.mpr ⟨member, rfl⟩
      have shorter := Name.enclosing_length_lt (ne_root_of_mem_paths proper member)
      rcases enclosed path member with root | outer
      · exact ReflTransGen.single (root ▸ inside)
      · exact ReflTransGen.head inside (ih _ (size ▸ shorter) _ outer rfl)

theorem module_of_mem_scopes {scope : Scope} (member : scope ∈ module.scopes) :
    scope.module = module := by
  rcases List.mem_cons.mp member with rfl | nested
  · rfl
  · obtain ⟨path, -, found⟩ := List.mem_filterMap.mp nested
    exact (scope_path found).2

/-- The scopes of a module are at the root and at its paths. -/
theorem exists_scope_iff (path : String) :
    (∃ scope ∈ module.scopes, scope.path = path) ↔ path = "" ∨ path ∈ module.paths := by
  rw [scopes, List.exists_mem_cons_iff]
  apply or_congr
  · exact eq_comm
  · constructor
    · rintro ⟨scope, nested, rfl⟩
      obtain ⟨path, stored, found⟩ := List.mem_filterMap.mp nested
      rwa [(scope_path found).1]
    · intro stored
      obtain ⟨scope, found⟩ := scope_of_mem_paths stored
      exact ⟨scope, List.mem_filterMap.mpr ⟨path, stored, found⟩, (scope_path found).1⟩

theorem mem_paths_of_scopeNamed {name path : String} (found : module.scopeNamed? name = some path) :
    path ∈ module.paths := by
  dsimp only [scopeNamed?] at found
  split at found
  · next exactly =>
    cases found
    simpa using exactly
  · split at found
    · next rooted =>
      cases found
      simpa using (Option.filter_eq_some_iff.mp rooted).2
    · exact List.mem_of_find?_eq_some found

/-- A nested scope that a type means is one of the module. -/
theorem mem_paths_of_structure {scope : Scope} {type : TypeRef} {path : String}
    (means : scope.structure? type = some (.nested path)) : path ∈ scope.module.paths := by
  unfold Scope.structure? at means
  split at means
  · cases means
  · split at means
    · next found =>
      cases means
      exact mem_paths_of_scopeNamed found
    · cases means

/-- The fold begins with the scope it starts at, however deep it goes. -/
theorem path_mem_foldFrom_visit (depth : Nat) (scope : Scope) :
    scope.path ∈ (foldFrom visit module depth scope).map Prod.fst := by
  cases depth with
  | zero => exact List.mem_cons_self
  | succ depth => exact List.mem_cons_self

/-- A root that is inside itself is met again. -/
theorem count_root_of_improper (improper : "" ∈ module.paths) :
    1 < (module.visits.map Prod.fst).count "" := by
  -- there is a nested scope, so the fold goes in at least once, and comes to the root at once
  obtain ⟨depth, size⟩ : ∃ depth, module.nested.length = depth + 1 := by
    apply Nat.exists_eq_succ_of_ne_zero
    intro empty
    rw [paths, List.length_eq_zero_iff.mp empty] at improper
    cases improper
  have again : ("" : String) ∈ (((module.inner module.rootScope).map
      (foldFrom visit module depth)).flatten).map Prod.fst := by
    rw [List.map_flatten, List.mem_flatten]
    refine ⟨_, List.mem_map_of_mem (List.mem_map_of_mem (rootScope_mem_inner improper)), ?_⟩
    exact path_mem_foldFrom_visit depth module.rootScope
  rw [visits, foldScopes, size, foldFrom_succ, visit, List.map_cons, List.map_map]
  have top : module.rootScope.path = "" := rfl
  rw [top, List.count_cons_self]
  exact Nat.succ_lt_succ (List.count_pos_iff.mpr again)

theorem not_isClear_root : ¬ Name.IsClear "" := by
  rintro ⟨first, others, shape, -⟩
  cases shape

/-- All scopes are met, and then once, when each stands in the root or in another one. -/
theorem visits_once_iff (proper : "" ∉ module.paths) (distinct : module.paths.Nodup) :
    (∀ scope ∈ module.scopes, (module.visits.map Prod.fst).count scope.path = 1) ↔
      ∀ path ∈ module.paths, Name.enclosing path = "" ∨ Name.enclosing path ∈ module.paths := by
  have once : ∀ path, (module.visits.map Prod.fst).count path = 1 ↔
      ReflTransGen module.Inside path "" := by
    intro path
    rw [← mem_visits_paths_iff proper]
    constructor
    · intro single
      exact List.count_pos_iff.mp (by omega)
    · exact List.count_eq_one_of_mem (nodup_visits_paths proper distinct)
  rw [← below_root_iff proper]
  constructor
  · intro all path member
    obtain ⟨scope, listed, rfl⟩ := (exists_scope_iff path).mpr (Or.inr member)
    exact (once _).mp (all scope listed)
  · intro below scope listed
    rw [once]
    rcases (exists_scope_iff scope.path).mp ⟨scope, listed, rfl⟩ with root | member
    · rw [root]
    · exact below _ member

/-- The scopes met are met under the names of references when their paths are clear. -/
theorem visits_named_iff (proper : "" ∉ module.paths) :
    (∀ visited ∈ module.visits, visited.2 = module.root.name :: Name.segments visited.1) ↔
      ∀ path ∈ module.paths, path ∈ module.visits.map Prod.fst → Name.IsClear path := by
  have clearIff : ∀ path ∈ module.paths,
      (Name.descent path = Name.segments path ↔ Name.IsClear path) :=
    fun path member => Name.descent_eq_segments_iff (ne_root_of_mem_paths proper member)
  constructor
  · intro named path member met
    obtain ⟨⟨_, names⟩, visited, rfl⟩ := List.mem_map.mp met
    have referred := named _ visited
    rw [names_of_mem_visits proper visited] at referred
    exact (clearIff _ member).mp (List.cons.inj referred).2
  · rintro clear ⟨path, names⟩ visited
    have met := List.mem_map_of_mem (f := Prod.fst) visited
    rw [names_of_mem_visits proper visited]
    rcases ((mem_visits_paths_iff proper path).mp met).cases_head with rfl | ⟨_, step, -⟩
    · rw [Name.descent_root]
      rfl
    · have member := (mem_children_iff.mp step).1
      rw [(clearIff path member).mpr (clear path member met)]

/-- The fold meets every scope once and under the name it is referred to by exactly when the path of
every nested scope is clear and the path around it is that of the root or of another scope. -/
theorem emittedAsReferenced_iff {root : Format} (built : ofFormat root = .ok module) :
    module.EmittedAsReferenced ↔ ∀ path ∈ module.paths, Name.IsClear path ∧
      (Name.enclosing path = "" ∨ Name.enclosing path ∈ module.paths) := by
  by_cases improper : "" ∈ module.paths
  · refine iff_of_false ?_ ?_
    · intro agree
      have once := agree.once module.rootScope List.mem_cons_self
      exact absurd once (count_root_of_improper improper).ne'
    · exact fun all => not_isClear_root (all "" improper).1
  have proper : "" ∉ module.paths := improper
  have onceIff := visits_once_iff proper (nodup_paths built)
  have metIff := mem_visits_paths_iff proper
  constructor
  · intro agree
    have enclosed := onceIff.mp agree.once
    have below := (below_root_iff proper).mpr enclosed
    intro path member
    have met := (metIff path).mpr (below path member)
    exact ⟨(visits_named_iff proper).mp agree.named path member met, enclosed path member⟩
  · intro all
    have enclosed := fun path member => (all path member).2
    have named := (visits_named_iff proper).mpr fun path member _ => (all path member).1
    refine ⟨onceIff.mpr enclosed, named, ?_⟩
    intro scope listed type path means
    have stored := mem_paths_of_structure means
    rw [module_of_mem_scopes listed] at stored
    have met := (metIff path).mpr ((below_root_iff proper).mpr enclosed path stored)
    obtain ⟨⟨_, names⟩, visited, rfl⟩ := List.mem_map.mp met
    rwa [← named _ visited]

/-- Scopes in the root, written with and without its name, and one in another. -/
theorem emittedAsReferenced_iff_nested :
    let leaf : Format := { name := "leaf", order := .little }
    let root : Format :=
      { name := "top", order := .little,
        types := [⟨"outer", .embed leaf⟩, ⟨"top::sibling", .embed leaf⟩,
          ⟨"outer::inner", .embed leaf⟩] }
    root.violation? = none ∧ ∃ module, ofFormat root = .ok module ∧ module.unsupported? = none ∧
      module.paths = ["outer", "outer::inner", "sibling"] ∧ module.EmittedAsReferenced := by
  intro leaf root
  have listable : leaf.IsListable := ⟨by decide, by decide⟩
  have valid : root.violation? = none := by
    refine Format.violation_of_embeds (by decide) (by decide) ?_ (by simp)
    simp only [List.forall_mem_cons]
    exact ⟨⟨by decide, leaf, rfl⟩, ⟨by decide, leaf, rfl⟩, ⟨by decide, leaf, rfl⟩, by simp⟩
  have paths : pathOf root "outer" = "outer" ∧ pathOf root "top::sibling" = "sibling" ∧
      pathOf root "outer::inner" = "outer::inner" := by
    change (Name.relativeTo "top" "outer").getD "outer" = "outer" ∧
      (Name.relativeTo "top" "top::sibling").getD "top::sibling" = "sibling" ∧
      (Name.relativeTo "top" "outer::inner").getD "outer::inner" = "outer::inner"
    decide
  have built : ofFormat root = .ok
      { root, nested := [("outer", leaf), ("outer::inner", leaf), ("sibling", leaf)] } := by
    refine ofFormat_eq_ok.mpr ⟨rfl, ?_⟩
    rw [addScopes_embed _ _ _ listable, addScopes_embed _ _ _ listable,
      addScopes_embed _ _ _ listable, paths.1, paths.2.1, paths.2.2]
    rfl
  refine ⟨valid, _, built, rfl, rfl, (emittedAsReferenced_iff built).mpr ?_⟩
  change ∀ path ∈ ["outer", "outer::inner", "sibling"], Name.IsClear path ∧
    (Name.enclosing path = "" ∨ Name.enclosing path ∈ ["outer", "outer::inner", "sibling"])
  simp only [List.forall_mem_cons]
  refine ⟨⟨⟨"outer", [], ?_⟩, ?_⟩, ⟨⟨"outer", ["inner"], ?_⟩, ?_⟩, ⟨⟨"sibling", [], ?_⟩, ?_⟩, nofun⟩
  all_goals decide

/-- A scope inside one that is not there is never met, though a field refers to it. -/
theorem not_emittedAsReferenced_orphan :
    let leaf : Format := { name := "leaf", order := .little }
    let root : Format :=
      { name := "top", order := .little, types := [⟨"outer::inner", .embed leaf⟩],
        fields := [{ id := "x", type := .named "outer::inner" }] }
    root.violation? = none ∧ ∃ module, ofFormat root = .ok module ∧ module.unsupported? = none ∧
      module.rootScope.structure? (.named "outer::inner") = some (.nested "outer::inner") ∧
      "outer::inner" ∉ module.visits.map Prod.fst ∧ ¬ module.EmittedAsReferenced := by
  intro leaf root
  have listable : leaf.IsListable := ⟨by decide, by decide⟩
  have valid : root.violation? = none := by
    refine Format.violation_of_embeds (by decide) (by decide) ?_ ?_
    · exact List.forall_mem_singleton.mpr ⟨by decide, leaf, rfl⟩
    · exact List.forall_mem_singleton.mpr ⟨"x", by decide, _, List.mem_singleton_self _, rfl⟩
  have path : pathOf root "outer::inner" = "outer::inner" := by
    change (Name.relativeTo "top" "outer::inner").getD "outer::inner" = "outer::inner"
    decide
  obtain ⟨module, shape⟩ : ∃ module : Module,
      module = { root, nested := [("outer::inner", leaf)] } := ⟨_, rfl⟩
  have built : ofFormat root = .ok module := by
    rw [shape]
    refine ofFormat_eq_ok.mpr ⟨rfl, ?_⟩
    rw [addScopes_embed _ _ _ listable, path]
    rfl
  have bare : module.rootScope.aliases = ⟨[]⟩ := by
    rw [shape]
    simp [rootScope, AliasTable.ofTypes, root, Listing.payload_embed]
  have meant : module.rootScope.structure? (.named "outer::inner") =
      some (.nested "outer::inner") := by
    rw [Scope.structure?, bare, shape]
    simp [AliasTable.resolve, AliasTable.follow, rootScope, scopeNamed?, Module.paths]
  have supported : module.unsupported? = none := by
    have own : Subset.rejectField module.rootScope { id := "x", type := .named "outer::inner" } =
        none := by
      simp [Subset.rejectField, Scope.fieldStructure?, meant, Subset.reject]
    have outer : Subset.rejectScope module.rootScope = none := by
      have fields : module.rootScope.format = root := by rw [shape]; rfl
      simp only [Subset.rejectScope, fields, root, List.findSome?_cons, own]
      rfl
    rw [unsupported?, scopes, List.findSome?_cons, outer, shape]
    rfl
  have paths : module.paths = ["outer::inner"] := by rw [shape]; rfl
  have unmet : "outer::inner" ∉ module.visits.map Prod.fst := by
    have proper : "" ∉ module.paths := by
      rw [paths]
      decide
    rw [mem_visits_paths_iff proper]
    intro below
    have enclosed := (below_root_iff proper).mp (by simpa [paths] using below)
    rw [paths] at enclosed
    exact absurd (enclosed _ (List.mem_singleton_self _)) (by decide)
  refine ⟨valid, module, built, supported, meant, unmet, ?_⟩
  intro agree
  have met := agree.referred module.rootScope List.mem_cons_self _ _ meant
  exact unmet (List.mem_map_of_mem met)

end FormatCompiler.Module
