import Mathlib.Data.List.Induction
import FormatCompiler.Module.Basic
import FormatCompiler.Proofs.AliasWalk

/-!
What a switch is stored as. The types of its cases are folded from the left by a strict comparison,
so the outcome is the type of the first case that no other is wider than. There is one just when
every case leads to a primitive. In another order of the cases another type may come first, but it
is as wide.
-/

namespace FormatCompiler

set_option autoImplicit false

namespace Scope

/-- The fold ends with the earliest type of the greatest rank. -/
theorem foldl_wider_split (first : Primitive) (types : List Primitive) :
    ∃ before after, first :: types = before ++ types.foldl wider first :: after ∧
      (∀ type ∈ before, type.rank < (types.foldl wider first).rank) ∧
      ∀ type ∈ after, type.rank ≤ (types.foldl wider first).rank := by
  -- from the right: the last type either takes the place of the outcome or stays behind it
  induction types using List.reverseRecOn with
  | nil => exact ⟨[], [], rfl, by simp, by simp⟩
  | append_singleton types last ih =>
    obtain ⟨before, after, shape, smaller, others⟩ := ih
    rw [List.foldl_append, List.foldl_cons, List.foldl_nil]
    generalize types.foldl wider first = best at shape smaller others ⊢
    rw [wider]
    split
    · next less =>
      refine ⟨first :: types, [], rfl, ?_, by simp⟩
      intro type member
      rw [shape] at member
      rcases List.mem_append.mp member with earlier | later
      · exact Nat.lt_trans (smaller type earlier) less
      · rcases List.mem_cons.mp later with rfl | later
        · exact less
        · exact Nat.lt_of_le_of_lt (others type later) less
    · next notLess =>
      refine ⟨before, after ++ [last], ?_, smaller, ?_⟩
      · rw [← List.cons_append, shape, List.append_assoc, List.cons_append]
      · intro type member
        rcases List.mem_append.mp member with earlier | same
        · exact others type earlier
        · rw [List.mem_singleton.mp same]
          exact Nat.le_of_not_lt notLess

/-- A primitive is that of a case which no case is wider than, and which every case before it is
narrower than. All cases lead to primitives. -/
def IsLeftmostWidest (scope : Scope) (cases : List SwitchCase) (type : Primitive) : Prop :=
  ∃ before case after, cases = before ++ case :: after ∧ scope.aliases.Finds case.type type ∧
    (∀ other ∈ cases, ∃ found, scope.aliases.Finds other.type found ∧ found.rank ≤ type.rank) ∧
    ∀ earlier ∈ before, ∀ found, scope.aliases.Finds earlier.type found → found.rank < type.rank

variable {scope : Scope} {field : Field} {cases : List SwitchCase}

theorem primitive_eq_some_iff_finds {ref : TypeRef} {type : Primitive} :
    scope.primitive? ref = some type ↔ scope.aliases.Finds ref type :=
  AliasTable.primitive_eq_some_iff_finds

theorem primitive_eq_none_iff {ref : TypeRef} :
    scope.primitive? ref = none ↔ ∀ type, ¬ scope.aliases.Finds ref type := by
  simp only [Option.eq_none_iff_forall_ne_some, ne_eq, primitive_eq_some_iff_finds]

theorem mapM_primitive_eq_some_iff {types : List Primitive} :
    cases.mapM (fun case => scope.primitive? case.type) = some types ↔
      cases.map (fun case => scope.primitive? case.type) = types.map some := by
  induction cases generalizing types with
  | nil => cases types <;> simp
  | cons case rest ih =>
    simp only [List.mapM_cons, List.map_cons, Option.bind_eq_bind, Option.pure_def,
      Option.bind_eq_some_iff, Option.some.injEq, ih]
    constructor
    · rintro ⟨type, found, others, same, rfl⟩
      rw [found, same, List.map_cons]
    · intro same
      obtain ⟨type, others, rfl, found, rest⟩ := List.map_eq_cons_iff.mp same.symm
      exact ⟨type, found.symm, others, rest.symm, rfl⟩

theorem widestCase_eq_some_iff {type : Primitive} :
    scope.widestCase? cases = some type ↔ ∃ first types,
      cases.map (fun case => scope.primitive? case.type) = (first :: types).map some ∧
        types.foldl wider first = type := by
  cases cases with
  | nil => simp [widestCase?]
  | cons case rest =>
    simp only [widestCase?, Option.bind_eq_bind, Option.pure_def, Option.bind_eq_some_iff,
      Option.some.injEq, mapM_primitive_eq_some_iff, List.map_cons, List.cons.injEq]
    constructor
    · rintro ⟨types, others, first, found, rfl⟩
      exact ⟨first, types, ⟨found, others⟩, rfl⟩
    · rintro ⟨first, types, ⟨found, others⟩, rfl⟩
      exact ⟨types, others, first, found, rfl⟩

theorem isLeftmostWidest_of_widestCase {type : Primitive}
    (found : scope.widestCase? cases = some type) : scope.IsLeftmostWidest cases type := by
  obtain ⟨first, types, each, rfl⟩ := widestCase_eq_some_iff.mp found
  obtain ⟨before, after, shape, smaller, others⟩ := foldl_wider_split first types
  generalize types.foldl wider first = best at shape smaller others
  rw [shape, List.map_append, List.map_cons] at each
  obtain ⟨left, right, rfl, earlier, each⟩ := List.map_eq_append_iff.mp each
  obtain ⟨case, right, rfl, here, later⟩ := List.map_eq_cons_iff.mp each
  -- a case on either side has for its type one of the types on that side
  have stands : ∀ {part : List SwitchCase} {found : List Primitive},
      part.map (fun case => scope.primitive? case.type) = found.map some →
        ∀ other ∈ part, ∃ type ∈ found, scope.primitive? other.type = some type := by
    intro part found same other member
    have listed : scope.primitive? other.type ∈ found.map some := by
      rw [← same]
      exact List.mem_map_of_mem (f := fun case : SwitchCase => scope.primitive? case.type) member
    obtain ⟨type, member, same⟩ := List.mem_map.mp listed
    exact ⟨type, member, same.symm⟩
  refine ⟨left, case, right, rfl, primitive_eq_some_iff_finds.mp here, ?_, ?_⟩
  · intro other member
    rcases List.mem_append.mp member with before | member
    · obtain ⟨type, listed, same⟩ := stands earlier other before
      exact ⟨type, primitive_eq_some_iff_finds.mp same, Nat.le_of_lt (smaller type listed)⟩
    rcases List.mem_cons.mp member with rfl | behind
    · exact ⟨best, primitive_eq_some_iff_finds.mp here, Nat.le_refl _⟩
    · obtain ⟨type, listed, same⟩ := stands later other behind
      exact ⟨type, primitive_eq_some_iff_finds.mp same, others type listed⟩
  · intro other member type finds
    obtain ⟨same, listed, stored⟩ := stands earlier other member
    rw [(primitive_eq_some_iff_finds.mp stored).unique finds] at listed
    exact smaller type listed

theorem widestCase_eq_none_iff (inhabited : cases ≠ []) :
    scope.widestCase? cases = none ↔
      ∃ case ∈ cases, ∀ type, ¬ scope.aliases.Finds case.type type := by
  constructor
  · intro missing
    by_contra all
    -- if each case has a primitive, the list of them is what the fold goes over
    have each : cases.map (fun case => scope.primitive? case.type) =
        (cases.map fun case => scope.primitive case.type).map some := by
      rw [List.map_map]
      refine List.map_congr_left fun case member => ?_
      cases found : scope.primitive? case.type with
      | none => exact absurd ⟨case, member, primitive_eq_none_iff.mp found⟩ all
      | some type => simp [Scope.primitive, found]
    obtain ⟨case, rest, rfl⟩ := List.exists_cons_of_ne_nil inhabited
    have found := widestCase_eq_some_iff.mpr ⟨_, _, each, rfl⟩
    rw [missing] at found
    cases found
  · rintro ⟨case, member, bare⟩
    by_contra present
    obtain ⟨type, found⟩ := Option.ne_none_iff_exists'.mp present
    obtain ⟨-, -, -, -, -, all, -⟩ := isLeftmostWidest_of_widestCase found
    obtain ⟨type, finds, -⟩ := all case member
    exact bare type finds

namespace IsLeftmostWidest

variable {type : Primitive}

theorem exists_case (widest : scope.IsLeftmostWidest cases type) :
    ∃ case ∈ cases, scope.aliases.Finds case.type type := by
  obtain ⟨before, case, after, rfl, finds, -⟩ := widest
  exact ⟨case, List.mem_append_right before List.mem_cons_self, finds⟩

theorem rank_le (widest : scope.IsLeftmostWidest cases type) {case : SwitchCase}
    (member : case ∈ cases) {other : Primitive} (finds : scope.aliases.Finds case.type other) :
    other.rank ≤ type.rank := by
  obtain ⟨-, -, -, -, -, all, -⟩ := widest
  obtain ⟨found, same, bound⟩ := all case member
  rwa [← same.unique finds]

/-- Only the order of the cases tells apart types that are the widest of the same cases. -/
theorem rank_eq {order : List SwitchCase} {other : Primitive}
    (widest : scope.IsLeftmostWidest cases type) (also : scope.IsLeftmostWidest order other)
    (same : ∀ case, case ∈ order ↔ case ∈ cases) : other.rank = type.rank := by
  obtain ⟨first, member, finds⟩ := widest.exists_case
  obtain ⟨second, listed, found⟩ := also.exists_case
  exact Nat.le_antisymm (widest.rank_le ((same second).mp listed) found)
    (also.rank_le ((same first).mpr member) finds)

end IsLeftmostWidest

theorem fieldPrimitive_switch (switched : field.switchOn.isSome) (inhabited : field.cases ≠ []) :
    scope.fieldPrimitive? field = scope.widestCase? field.cases := by
  have present := Option.isSome_iff_ne_none.mp switched
  rw [fieldPrimitive?, if_neg (by simp [present, inhabited])]

/-- A switch with cases is stored as no primitive just when the type of some case leads to none, and
else as the type of its leftmost widest case. The same cases in another order are stored as a type
of the same rank, which is the greatest of the cases. -/
theorem fieldPrimitive_leftmost_widest (switched : field.switchOn.isSome)
    (inhabited : field.cases ≠ []) :
    (scope.fieldPrimitive? field = none ↔
      ∃ case ∈ field.cases, ∀ type, ¬ scope.aliases.Finds case.type type) ∧
    (∀ type, scope.fieldPrimitive? field = some type → scope.IsLeftmostWidest field.cases type) ∧
    ∀ order, order.Perm field.cases →
      (scope.fieldPrimitive? { field with cases := order } = none ↔
        scope.fieldPrimitive? field = none) ∧
      ∀ first second, scope.fieldPrimitive? field = some first →
        scope.fieldPrimitive? { field with cases := order } = some second →
          second.rank = first.rank ∧ ∀ case ∈ field.cases, ∀ type,
            scope.aliases.Finds case.type type → type.rank ≤ first.rank := by
  have stored : scope.fieldPrimitive? field = scope.widestCase? field.cases :=
    fieldPrimitive_switch switched inhabited
  refine ⟨stored ▸ widestCase_eq_none_iff inhabited, ?_, ?_⟩
  · intro type found
    exact isLeftmostWidest_of_widestCase (stored ▸ found)
  · intro order perm
    have filled : order ≠ [] := fun empty => inhabited (List.Perm.nil_eq (empty ▸ perm)).symm
    have reordered : scope.fieldPrimitive? { field with cases := order } =
        scope.widestCase? order := fieldPrimitive_switch switched filled
    have same : ∀ case, case ∈ order ↔ case ∈ field.cases := fun case => perm.mem_iff
    rw [stored, reordered]
    constructor
    · simp only [widestCase_eq_none_iff filled, widestCase_eq_none_iff inhabited, same]
    · intro first second found foundToo
      have widest := isLeftmostWidest_of_widestCase found
      exact ⟨widest.rank_eq (isLeftmostWidest_of_widestCase foundToo) same,
        fun case member type finds => widest.rank_le member finds⟩

/-- Three cases, of which the second and the third are the widest; the second is an alias. -/
theorem fieldPrimitive_leftmost_widest_alias :
    let field : Field :=
      { id := "body", type := .primitive .u1, switchOn := some (.name "tag"),
        cases := [⟨some (.int 1), .primitive .s2⟩, ⟨some (.int 2), .named "real"⟩,
          ⟨none, .primitive .u4⟩] }
    let root : Format :=
      { name := "top", order := .little, types := [⟨"real", .primitive .f4⟩], fields := [field] }
    let scope := Module.rootScope { root, nested := [] }
    scope.fieldPrimitive? field = some .f4 ∧ scope.IsLeftmostWidest field.cases .f4 := by
  intro field root scope
  have stored : scope.fieldPrimitive? field = some .f4 := by decide +kernel
  exact ⟨stored, (fieldPrimitive_leftmost_widest rfl (by decide)).2.1 _ stored⟩

end Scope

end FormatCompiler
