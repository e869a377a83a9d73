import Mathlib.Logic.Relation
import FormatCompiler.Format.Alias

/-!
The walk along aliases, with the names it has passed. From every type there is one walk, and it
comes to an end: at a primitive, at a name that is no alias, or at a name that it has passed. What a
table resolves a type to is the end of the walk, so it depends on what each name stands for alone.
The primitive of a type is the one that its aliases lead to; no cycle needs to be ruled out first.
-/

namespace FormatCompiler

set_option autoImplicit false

namespace AliasTable

/-- What a name stands for if it is an alias. -/
def target? (table : AliasTable) (name : String) : Option TypeRef :=
  (table.decls.find? fun decl => decl.name == name).map TypeDecl.type

/-- A name stands for another name. -/
def Leads (table : AliasTable) (name next : String) : Prop :=
  table.target? name = some (.named next)

/-- How a walk along aliases ends. -/
inductive WalkEnd where
  | primitive (type : Primitive)
  /-- At a name that is no alias. -/
  | free (name : String)
  /-- At a name that the walk has passed. -/
  | again (name : String)
  deriving DecidableEq, Repr

/-- What the end of a walk is reported as. A name that comes back is not told from a free one. -/
def WalkEnd.resolved : WalkEnd → Resolved
  | .primitive type => .primitive type
  | .free name => .opaqueName name
  | .again name => .opaqueName name

/-- The walk from a type that has passed some names before. -/
inductive Walk (table : AliasTable) : List String → TypeRef → WalkEnd → Prop
  | primitive (passed : List String) (type : Primitive) :
      Walk table passed (.primitive type) (.primitive type)
  | again {passed : List String} {name : String} (met : name ∈ passed) :
      Walk table passed (.named name) (.again name)
  | free {passed : List String} {name : String} (fresh : name ∉ passed)
      (bare : table.target? name = none) : Walk table passed (.named name) (.free name)
  | next {passed : List String} {name : String} {ref : TypeRef} {ending : WalkEnd}
      (fresh : name ∉ passed) (target : table.target? name = some ref)
      (rest : Walk table (name :: passed) ref ending) : Walk table passed (.named name) ending

/-- A type leads to a primitive, with no account of the names on the way. -/
inductive Finds (table : AliasTable) : TypeRef → Primitive → Prop
  | primitive (type : Primitive) : Finds table (.primitive type) type
  | next {name : String} {ref : TypeRef} {type : Primitive}
      (target : table.target? name = some ref) (rest : Finds table ref type) :
      Finds table (.named name) type

variable {table : AliasTable} {passed : List String} {name next last start : String}
  {ref : TypeRef} {type : Primitive}

/-! ### One walk from every type -/

theorem Walk.unique {first second : WalkEnd} (left : Walk table passed ref first)
    (right : Walk table passed ref second) : first = second := by
  induction left with
  | primitive passed type =>
    cases right
    rfl
  | again met =>
    cases right with
    | again _ => rfl
    | free fresh _ => exact absurd met fresh
    | next fresh _ _ => exact absurd met fresh
  | free fresh bare =>
    cases right with
    | again met => exact absurd met fresh
    | free _ _ => rfl
    | next _ target _ =>
      rw [bare] at target
      cases target
  | next fresh target rest ih =>
    cases right with
    | again met => exact absurd met fresh
    | free _ bare =>
      rw [bare] at target
      cases target
    | next _ other rest' =>
      rw [target] at other
      cases other
      exact ih rest'

theorem find_without (decls : List TypeDecl) (name other : String) :
    ((without name decls).find? fun decl => decl.name == other) =
      if other = name then none else decls.find? fun decl => decl.name == other := by
  rw [without, List.find?_filter]
  split
  · next same =>
    rw [List.find?_eq_none]
    intro decl _
    simp [same]
  · next differ =>
    apply congrArg (List.find? · decls)
    funext decl
    by_cases here : decl.name = other
    · simp [here, differ]
    · simp [here]

/-- Leaving out the declarations that were used does what looking at the names passed does. -/
theorem exists_walk_follow {decls : List TypeDecl}
    (left : ∀ other, (decls.find? fun decl => decl.name == other) =
      if other ∈ passed then none else table.decls.find? fun decl => decl.name == other) :
    ∃ ending, Walk table passed (.named name) ending ∧ follow decls name = ending.resolved := by
  fun_induction follow decls name generalizing passed with
  | case1 decls name nothing =>
    by_cases met : name ∈ passed
    · exact ⟨.again name, .again met, rfl⟩
    · rw [left, if_neg met] at nothing
      exact ⟨.free name, .free met (by rw [target?, nothing, Option.map_none]), rfl⟩
  | case2 decls name decl found type target =>
    obtain ⟨fresh, stored⟩ := Option.ite_none_left_eq_some.mp ((left name).symm.trans found)
    have stands : table.target? name = some (.primitive type) := by
      rw [target?, stored, Option.map_some, target]
    exact ⟨.primitive type, .next fresh stands (.primitive _ type), rfl⟩
  | case3 decls name decl found next target ih =>
    obtain ⟨fresh, stored⟩ := Option.ite_none_left_eq_some.mp ((left name).symm.trans found)
    have stands : table.target? name = some (.named next) := by
      rw [target?, stored, Option.map_some, target]
    have fewer : ∀ other, ((without name decls).find? fun decl => decl.name == other) =
        if other ∈ name :: passed then none
        else table.decls.find? fun decl => decl.name == other := by
      intro other
      rw [find_without, left]
      by_cases same : other = name <;> simp [same]
    obtain ⟨ending, rest, same⟩ := ih fewer
    exact ⟨ending, .next fresh stands rest, same⟩

theorem exists_walk (table : AliasTable) (ref : TypeRef) :
    ∃ ending, Walk table [] ref ending ∧ table.resolve ref = ending.resolved := by
  cases ref with
  | primitive type => exact ⟨.primitive type, .primitive [] type, rfl⟩
  | named name => exact exists_walk_follow (by simp)

theorem Walk.congr {second : AliasTable} {ending : WalkEnd}
    (same : ∀ name, table.target? name = second.target? name)
    (walk : Walk table passed ref ending) : Walk second passed ref ending := by
  induction walk with
  | primitive passed type => exact .primitive passed type
  | again met => exact .again met
  | free fresh bare => exact .free fresh ((same _).symm.trans bare)
  | next fresh target _ ih => exact .next fresh ((same _).symm.trans target) ih

/-- Tables in which every name stands for the same resolve every type the same. -/
theorem resolve_congr {second : AliasTable}
    (same : ∀ name, table.target? name = second.target? name) :
    table.resolve = second.resolve := by
  funext ref
  obtain ⟨ending, walk, resolved⟩ := table.exists_walk ref
  obtain ⟨other, also, resolved'⟩ := second.exists_walk ref
  rw [resolved, resolved', (walk.congr same).unique also]

theorem resolve_of_target_none (bare : table.target? name = none) :
    table.resolve (.named name) = .opaqueName name := by
  obtain ⟨ending, walk, resolved⟩ := table.exists_walk (.named name)
  rw [resolved, walk.unique (.free List.not_mem_nil bare)]
  rfl

/-! ### Where a walk ends -/

theorem Walk.finds {ending : WalkEnd} (walk : Walk table passed ref ending)
    (reached : ending = .primitive type) : Finds table ref type := by
  induction walk with
  | primitive passed other =>
    cases reached
    exact .primitive type
  | again _ => cases reached
  | free _ _ => cases reached
  | next _ target _ ih => exact .next target (ih reached)

theorem Walk.path_of_free {ending : WalkEnd} (walk : Walk table passed ref ending)
    (ended : ending = .free last) :
    table.target? last = none ∧
      ∃ start, ref = .named start ∧ Relation.ReflTransGen table.Leads start last := by
  induction walk with
  | primitive => cases ended
  | again _ => cases ended
  | free _ bare =>
    cases ended
    exact ⟨bare, last, rfl, .refl⟩
  | @next passed name ref ending _ target _ ih =>
    obtain ⟨bare, start, rfl, path⟩ := ih ended
    exact ⟨bare, name, rfl, .head target path⟩

/-- A walk that ends at a name it has passed was on a cycle: all that is passed leads to where the
walk stands. -/
theorem Walk.cycle_of_again {ending : WalkEnd} (walk : Walk table passed ref ending)
    (ended : ending = .again last)
    (behind : ∀ other ∈ passed, ∀ start, ref = .named start →
      Relation.TransGen table.Leads other start) :
    Relation.TransGen table.Leads last last ∧
      ∃ start, ref = .named start ∧ Relation.ReflTransGen table.Leads start last := by
  induction walk with
  | primitive => cases ended
  | again met =>
    cases ended
    exact ⟨behind last met last rfl, last, rfl, .refl⟩
  | free _ _ => cases ended
  | @next passed name ref ending _ target _ ih =>
    obtain ⟨cycle, start, rfl, path⟩ := ih ended (by
      rintro other member start rfl
      rcases List.mem_cons.mp member with rfl | before
      · exact .single target
      · exact (behind other before name rfl).tail target)
    exact ⟨cycle, name, rfl, .head target path⟩

/-! ### Types that lead to a primitive -/

namespace Finds

theorem named_iff : Finds table (.named name) type ↔
    ∃ ref, table.target? name = some ref ∧ Finds table ref type := by
  constructor
  · intro finds
    cases finds with
    | next target rest => exact ⟨_, target, rest⟩
  · rintro ⟨ref, target, rest⟩
    exact .next target rest

/-- A type is found where the type that it stands for is. -/
theorem step_iff (target : table.target? name = some ref) :
    Finds table (.named name) type ↔ Finds table ref type := by
  rw [named_iff, target]
  simp

theorem unique {first second : Primitive} (left : Finds table ref first)
    (right : Finds table ref second) : first = second := by
  induction left with
  | primitive type =>
    cases right
    rfl
  | next target rest ih => exact ih ((step_iff target).mp right)

theorem along (finds : Finds table (.named start) type)
    (path : Relation.ReflTransGen table.Leads start last) : Finds table (.named last) type := by
  induction path with
  | refl => exact finds
  | tail _ leads ih => exact (step_iff leads).mp ih

theorem acyclic (finds : Finds table ref type) :
    ∀ name, ref = .named name → ¬ Relation.TransGen table.Leads name name := by
  induction finds with
  | primitive type => rintro _ ⟨⟩
  | @next name ref type target rest ih =>
    rintro _ ⟨⟩ cycle
    obtain ⟨next, leads, back⟩ := Relation.TransGen.head'_iff.mp cycle
    rw [Leads, target] at leads
    cases leads
    exact ih next rfl (.tail' back target)

end Finds

/-- The primitive of a type is the one it leads to; a type on a cycle leads to none. -/
theorem primitive_eq_some_iff_finds : table.primitive? ref = some type ↔ Finds table ref type := by
  obtain ⟨ending, walk, same⟩ := table.exists_walk ref
  rw [primitive?, same]
  cases ending with
  | primitive other =>
    have finds := walk.finds rfl
    constructor
    · intro found
      cases found
      exact finds
    · intro also
      rw [finds.unique also]
      rfl
  | free name =>
    refine iff_of_false nofun fun finds => ?_
    obtain ⟨bare, start, rfl, path⟩ := walk.path_of_free rfl
    obtain ⟨ref, target, -⟩ := Finds.named_iff.mp (finds.along path)
    rw [bare] at target
    cases target
  | again name =>
    refine iff_of_false nofun fun finds => ?_
    obtain ⟨cycle, start, rfl, path⟩ := walk.cycle_of_again rfl (by simp)
    exact (finds.along path).acyclic name rfl cycle

/-! ### Tables of declarations -/

variable {types : List TypeDecl}

theorem mem_ofTypes {decl : TypeDecl} :
    decl ∈ (ofTypes types).decls ↔ decl ∈ types ∧ decl.type.payload? = none := by
  simp [ofTypes]

/-- Behind other declarations, an alias counts only if they have none of its name. -/
theorem target_append (outer inner : List TypeDecl) (name : String) :
    (ofTypes (outer ++ inner)).target? name =
      ((ofTypes inner).target? name).or ((ofTypes outer).target? name) := by
  have decls :
      (ofTypes (outer ++ inner)).decls = (ofTypes inner).decls ++ (ofTypes outer).decls := by
    simp [ofTypes]
  rw [target?, decls, List.find?_append, Option.map_or]
  rfl

theorem exists_decl_of_target (target : (ofTypes types).target? name = some ref) :
    ∃ decl ∈ types, decl.name = name ∧ decl.type = ref ∧ decl.type.payload? = none := by
  obtain ⟨decl, found, rfl⟩ := Option.map_eq_some_iff.mp target
  obtain ⟨member, bare⟩ := mem_ofTypes.mp (List.mem_of_find?_eq_some found)
  have named : decl.name = name := by simpa using List.find?_some found
  exact ⟨decl, member, named, rfl, bare⟩

theorem target_eq_none_iff :
    (ofTypes types).target? name = none ↔
      ∀ decl ∈ types, decl.name = name → decl.type.payload?.isSome = true := by
  rw [target?, Option.map_eq_none_iff, List.find?_eq_none]
  simp only [mem_ofTypes, beq_iff_eq]
  constructor
  · intro bare decl member named
    rw [← Option.ne_none_iff_isSome]
    exact fun plain => bare decl ⟨member, plain⟩ named
  · rintro bare decl ⟨member, plain⟩ named
    have carries := bare decl member named
    rw [plain] at carries
    cases carries

end AliasTable

end FormatCompiler
