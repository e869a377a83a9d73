import Mathlib.Logic.Relation
import Mathlib.Order.WellFounded
import FormatCompiler.Module.Basic
import FormatCompiler.Proofs.ScopePath
import FormatCompiler.Proofs.ScopeTable

/-!
The tree of the scopes of a module. Going inward makes paths longer, so that it ends, unless a
nested scope has the path of the root: then the root is inside itself.
-/

namespace FormatCompiler.Module

set_option autoImplicit false

variable {module : Module}

theorem mem_children_iff {inner outer : String} :
    inner ∈ module.children outer ↔ inner ∈ module.paths ∧ Name.enclosing inner = outer := by
  simp [children]

theorem scope_root : module.scope? "" = some module.rootScope := rfl

theorem scope_path {path : String} {scope : Scope} (found : module.scope? path = some scope) :
    scope.path = path ∧ scope.module = module := by
  obtain ⟨format, -, shape⟩ := Option.bind_eq_some_iff.mp found
  split at shape
  · next root =>
    cases shape
    exact ⟨(String.isEmpty_iff.mp root).symm, rfl⟩
  · cases shape
    exact ⟨rfl, rfl⟩

/-- There is a scope at every path of a module. -/
theorem scope_of_mem_paths {path : String} (member : path ∈ module.paths) :
    ∃ scope, module.scope? path = some scope := by
  obtain ⟨format, found⟩ : ∃ format, module.format? path = some format := by
    obtain ⟨entry, stored, same⟩ := List.mem_map.mp member
    rw [format?]
    split
    · exact ⟨module.root, rfl⟩
    · rw [← Option.isSome_iff_exists, List.lookup_isSome_iff]
      exact ⟨entry, stored, by simp [same]⟩
  unfold scope?
  rw [found]
  by_cases root : path.isEmpty
  · exact ⟨module.rootScope, by simp [root]⟩
  · simp [root]

/-- The scopes directly inside a scope. -/
def inner (module : Module) (scope : Scope) : List Scope :=
  (module.children scope.path).filterMap module.scope?

theorem inner_paths (scope : Scope) :
    (module.inner scope).map Scope.path = module.children scope.path := by
  rw [inner, List.map_filterMap]
  calc
    (module.children scope.path).filterMap (fun path => (module.scope? path).map Scope.path) =
        (module.children scope.path).filterMap some := by
      apply List.filterMap_congr
      intro path child
      obtain ⟨scope, found⟩ := scope_of_mem_paths (mem_children_iff.mp child).1
      rw [found, Option.map_some, (scope_path found).1]
    _ = module.children scope.path := List.filterMap_some

theorem child_of_mem_inner {scope child : Scope} (member : child ∈ module.inner scope) :
    child.path ∈ module.children scope.path := by
  rw [← inner_paths]
  exact List.mem_map_of_mem member

/-- How many nested scopes have a longer path. -/
def rank (module : Module) (path : String) : Nat :=
  (module.paths.filter fun other => path.length < other.length).length

theorem rank_le (path : String) : module.rank path ≤ module.nested.length := by
  have shorter := List.length_filter_le (fun other => decide (path.length < other.length))
    module.paths
  rwa [paths, List.length_map] at shorter

theorem ne_root_of_mem_paths (proper : "" ∉ module.paths) {path : String}
    (member : path ∈ module.paths) : path ≠ "" :=
  fun root => proper (root ▸ member)

/-- Fewer scopes are longer than a scope than are longer than the one around it, when no nested
scope has the path of the root. -/
theorem rank_lt (proper : "" ∉ module.paths) {inner outer : String}
    (inside : inner ∈ module.children outer) : module.rank inner < module.rank outer := by
  obtain ⟨member, enclosing⟩ := mem_children_iff.mp inside
  have nested := ne_root_of_mem_paths proper member
  have longer : outer.length < inner.length := enclosing ▸ Name.enclosing_length_lt nested
  have narrowed : (module.paths.filter fun other => inner.length < other.length) =
      (module.paths.filter fun other => outer.length < other.length).filter
        fun other => inner.length < other.length := by
    rw [List.filter_filter]
    apply List.filter_congr
    intro other _
    by_cases beyond : inner.length < other.length
    · have both : outer.length < other.length := by omega
      simp [beyond, both]
    · simp [beyond]
  rw [rank, narrowed]
  refine List.length_filter_lt_length_iff_exists.mpr ⟨inner, ?_, by simp⟩
  exact List.mem_filter.mpr ⟨member, by simpa using longer⟩

/-- A function of scopes that makes what it yields of a scope from what it yields of the scopes
inside. -/
def IsFold {α : Type} (module : Module) (combine : Scope → List α → α) (emit : Scope → α) : Prop :=
  ∀ scope, emit scope = combine scope ((module.inner scope).map emit)

section

variable {α : Type} (combine : Scope → List α → α)

theorem foldFrom_succ (depth : Nat) (scope : Scope) :
    foldFrom combine module (depth + 1) scope =
      combine scope ((module.inner scope).map (foldFrom combine module depth)) :=
  rfl

theorem rank_inner_lt (proper : "" ∉ module.paths) {scope child : Scope}
    (member : child ∈ module.inner scope) : module.rank child.path < module.rank scope.path :=
  rank_lt proper (child_of_mem_inner member)

/-- Going deeper than there are scopes changes nothing. -/
theorem foldFrom_enough (proper : "" ∉ module.paths) {depth : Nat} {scope : Scope}
    (enough : module.rank scope.path ≤ depth) :
    foldFrom combine module (depth + 1) scope = foldFrom combine module depth scope := by
  induction depth generalizing scope with
  | zero =>
    -- nothing is longer than this path, so nothing is inside
    have leaf : module.inner scope = [] := by
      rw [List.eq_nil_iff_forall_not_mem]
      intro child member
      have smaller := rank_inner_lt proper member
      omega
    rw [foldFrom_succ, leaf]
    rfl
  | succ depth ih =>
    rw [foldFrom_succ, foldFrom_succ]
    congr 1
    apply List.map_congr_left
    intro child member
    have smaller := rank_inner_lt proper member
    exact ih (by omega)

theorem isFold_foldFrom (proper : "" ∉ module.paths) :
    module.IsFold combine (foldFrom combine module module.nested.length) := by
  intro scope
  rw [← foldFrom_enough combine proper (rank_le scope.path)]
  rfl

theorem IsFold.unique (proper : "" ∉ module.paths) {first second : Scope → α}
    (one : module.IsFold combine first) (other : module.IsFold combine second) :
    first = second := by
  funext scope
  induction size : module.rank scope.path using Nat.strongRecOn generalizing scope with
  | ind size ih =>
    rw [one scope, other scope]
    congr 1
    apply List.map_congr_left
    intro child member
    exact ih _ (size ▸ rank_inner_lt proper member) child rfl

end

/-- A nested scope at the path of the root stands inside the root, and so does the root. -/
theorem rootScope_mem_inner (improper : "" ∈ module.paths) :
    module.rootScope ∈ module.inner module.rootScope := by
  refine List.mem_filterMap.mpr ⟨"", ?_, scope_root⟩
  exact mem_children_iff.mpr ⟨improper, Name.enclosing_root⟩

theorem isEndless_iff : module.isEndless = true ↔ "" ∈ module.paths :=
  List.contains_iff_mem

theorem not_isEndless_iff : module.isEndless = false ↔ "" ∉ module.paths := by
  rw [← Bool.not_eq_true, isEndless_iff]

/-- Listing the scopes would have to list the root before itself. -/
theorem not_isFold_of_root (improper : "" ∈ module.paths) (emit : Scope → List Scope) :
    ¬ module.IsFold (fun scope below => scope :: below.flatten) emit := by
  intro solves
  have longer := congrArg List.length (solves module.rootScope)
  have part := (List.sublist_flatten_of_mem
    (List.mem_map_of_mem (f := emit) (rootScope_mem_inner improper))).length_le
  rw [List.length_cons] at longer
  omega

/-- One scope stands directly inside another, by their paths. -/
def Inside (module : Module) (inner outer : String) : Prop :=
  inner ∈ module.children outer

theorem inside_wellFounded (proper : "" ∉ module.paths) : WellFounded module.Inside := by
  refine Subrelation.wf ?_ (measure module.rank).wf
  intro inner outer inside
  exact rank_lt proper inside

theorem not_inside_itself (proper : "" ∉ module.paths) (path : String) :
    ¬ Relation.TransGen module.Inside path path :=
  (inside_wellFounded proper).transGen.irrefl.irrefl path

theorem root_mem_paths_iff {root : Format} (valid : root.violation? = none)
    (built : ofFormat root = .ok module) :
    "" ∈ module.paths ↔ ∃ decl ∈ root.carriers, decl.name = root.name ++ "::" := by
  have named := (Format.typeNames_of_valid valid).1
  rw [mem_paths_iff built]
  apply exists_congr
  intro decl
  apply and_congr_right
  intro member
  exact pathOf_eq_root_iff root (named decl (List.mem_of_mem_filter member))

/-- Going inward from scope to scope comes to an end exactly when no type that carries a format is
called like the root with nothing behind the separator. Just then no scope is inside itself, and
just then everything that is made of a scope from what is made of the scopes inside it is
determined; the fold of the scopes is what it comes to at the root. -/
theorem nesting_ends_iff {root : Format} (valid : root.violation? = none)
    (built : ofFormat root = .ok module) :
    (WellFounded module.Inside ↔ ∀ decl ∈ root.carriers, decl.name ≠ root.name ++ "::") ∧
    (WellFounded module.Inside ↔ ∀ path, ¬ Relation.TransGen module.Inside path path) ∧
    (WellFounded module.Inside ↔ ∀ (α : Type) (combine : Scope → List α → α),
      ∃ emit, module.IsFold combine emit ∧ (∀ other, module.IsFold combine other → other = emit) ∧
        module.foldScopes combine = emit module.rootScope) := by
  have condition : (∀ decl ∈ root.carriers, decl.name ≠ root.name ++ "::") ↔
      "" ∉ module.paths := by
    rw [root_mem_paths_iff valid built]
    simp
  have itself : "" ∈ module.paths → module.Inside "" "" := fun improper =>
    mem_children_iff.mpr ⟨improper, Name.enclosing_root⟩
  have acyclic : WellFounded module.Inside → ∀ path, ¬ Relation.TransGen module.Inside path path :=
    fun ends path cycle => ends.transGen.irrefl.irrefl path cycle
  rw [condition]
  refine ⟨⟨fun ends improper => acyclic ends "" (.single (itself improper)), inside_wellFounded⟩,
    ⟨acyclic, ?_⟩, ⟨?_, ?_⟩⟩
  · intro uncycled
    exact inside_wellFounded fun improper => uncycled "" (.single (itself improper))
  · intro ends α combine
    have proper : "" ∉ module.paths := fun improper => acyclic ends "" (.single (itself improper))
    refine ⟨_, isFold_foldFrom combine proper, ?_, rfl⟩
    intro other solves
    exact solves.unique combine proper (isFold_foldFrom combine proper)
  · intro determined
    apply inside_wellFounded
    intro improper
    obtain ⟨emit, solves, -⟩ := determined (List Scope) fun scope below => scope :: below.flatten
    exact not_isFold_of_root improper emit solves

/-- Paths made of separators and colons alone do no harm. -/
theorem nesting_ends_iff_colons :
    let leaf : Format := { name := "leaf", order := .little }
    let root : Format :=
      { name := "top", order := .little,
        types := [⟨"top::a::", .embed leaf⟩, ⟨"::", .embed leaf⟩, ⟨"top:::", .embed leaf⟩] }
    root.violation? = none ∧ ∃ module, ofFormat root = .ok module ∧
      module.paths = [":", "::", "a::"] ∧ WellFounded module.Inside := by
  intro leaf root
  have listable : leaf.IsListable := ⟨by decide, by decide⟩
  have valid : root.violation? = none := by
    refine Format.violation_of_embeds (by decide) (by decide) ?_ (by simp)
    simp only [List.forall_mem_cons]
    exact ⟨⟨by decide, leaf, rfl⟩, ⟨by decide, leaf, rfl⟩, ⟨by decide, leaf, rfl⟩, by simp⟩
  have paths : pathOf root "top::a::" = "a::" ∧ pathOf root "::" = "::" ∧
      pathOf root "top:::" = ":" := by
    change (Name.relativeTo "top" "top::a::").getD "top::a::" = "a::" ∧
      (Name.relativeTo "top" "::").getD "::" = "::" ∧
      (Name.relativeTo "top" "top:::").getD "top:::" = ":"
    decide
  have built : ofFormat root =
      .ok { root, nested := [(":", leaf), ("::", leaf), ("a::", leaf)] } := by
    refine ofFormat_eq_ok.mpr ⟨rfl, ?_⟩
    rw [addScopes_embed _ _ _ listable, addScopes_embed _ _ _ listable,
      addScopes_embed _ _ _ listable, paths.1, paths.2.1, paths.2.2]
    rfl
  refine ⟨valid, _, built, rfl, (nesting_ends_iff valid built).1.mpr ?_⟩
  intro decl member
  have declared := List.mem_of_mem_filter member
  simp only [root, List.mem_cons, List.not_mem_nil, or_false] at declared
  rcases declared with rfl | rfl | rfl <;> decide

/-- A type called like the root with nothing behind the separator: the root is inside itself. -/
theorem nesting_endless :
    let leaf : Format := { name := "leaf", order := .little }
    let root : Format :=
      { name := "top", order := .little, types := [⟨"top::", .embed leaf⟩] }
    root.violation? = none ∧ ∃ module, ofFormat root = .ok module ∧
      "" ∈ module.children "" ∧ ¬ WellFounded module.Inside := by
  intro leaf root
  have listable : leaf.IsListable := ⟨by decide, by decide⟩
  have valid : root.violation? = none := by
    refine Format.violation_of_embeds (by decide) (by decide) ?_ (by simp)
    exact List.forall_mem_singleton.mpr ⟨by decide, leaf, rfl⟩
  have path : pathOf root "top::" = "" := by
    change (Name.relativeTo "top" "top::").getD "top::" = ""
    decide
  have built : ofFormat root = .ok { root, nested := [("", leaf)] } := by
    refine ofFormat_eq_ok.mpr ⟨rfl, ?_⟩
    rw [addScopes_embed _ _ _ listable, path]
    rfl
  have inside : "" ∈ children { root, nested := [("", leaf)] } "" :=
    mem_children_iff.mpr ⟨List.mem_singleton_self _, Name.enclosing_root⟩
  exact ⟨valid, _, built, inside, fun ends => ends.irrefl.irrefl "" inside⟩

end FormatCompiler.Module
