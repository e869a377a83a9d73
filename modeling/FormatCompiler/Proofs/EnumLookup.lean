import Mathlib.Data.Nat.Find
import Mathlib.Logic.Function.Iterate
import FormatCompiler.Proofs.EnumReference

/-!
Enums looked up from inside. From the path where it starts, which need not be that of a scope, the
lookup goes outward one separator at a time until the root. It takes the first path on the way that
is a scope with an enum of the wanted short name, and there the first such enum. No other scope has
a say in it.
-/

namespace FormatCompiler

set_option autoImplicit false

namespace Name

theorem enclosing_iterate_root (steps : Nat) : enclosing^[steps] "" = "" :=
  Function.iterate_fixed enclosing_root steps

/-- Going outward comes to the root. -/
theorem exists_iterate_root (path : String) :
    ∃ steps ≤ path.length, enclosing^[steps] path = "" := by
  induction path using outward_induction with
  | root => exact ⟨0, Nat.zero_le _, rfl⟩
  | inside path top ih =>
    obtain ⟨steps, bound, reached⟩ := ih
    exact ⟨steps + 1, bound.trans_lt (enclosing_length_lt top), reached⟩

end Name

namespace Module

/-- The first enum of a short name that the scope at a path has. -/
def enumAt? (module : Module) (wanted path : String) : Option EnumDecl := do
  let format ← module.format? path
  format.enums.find? fun decl => Name.short decl.name == wanted

/-- A path is that of a scope with an enum of a short name. -/
def HasEnum (module : Module) (wanted path : String) : Prop :=
  ∃ format, module.format? path = some format ∧
    ∃ decl ∈ format.enums, Name.short decl.name = wanted

/-- An enum is the first of a short name in the scope at a path. -/
def IsEnumAt (module : Module) (wanted path : String) (decl : EnumDecl) : Prop :=
  ∃ format front back, module.format? path = some format ∧
    format.enums = front ++ decl :: back ∧ Name.short decl.name = wanted ∧
      ∀ earlier ∈ front, Name.short earlier.name ≠ wanted

variable {module : Module} {wanted path : String} {decl : EnumDecl}

theorem enumAt_eq_some_iff :
    module.enumAt? wanted path = some decl ↔ module.IsEnumAt wanted path decl := by
  simp only [enumAt?, Option.bind_eq_bind, Option.bind_eq_some_iff, List.find?_eq_some_iff_append,
    beq_iff_eq, Bool.not_eq_true', beq_eq_false_iff_ne, IsEnumAt]
  constructor
  · rintro ⟨format, scope, same, front, back, shape, first⟩
    exact ⟨format, front, back, scope, shape, same, first⟩
  · rintro ⟨format, front, back, scope, shape, same, first⟩
    exact ⟨format, scope, same, front, back, shape, first⟩

theorem enumAt_eq_none_iff : module.enumAt? wanted path = none ↔ ¬ module.HasEnum wanted path := by
  simp [enumAt?, HasEnum]

theorem enumAt_congr {changed : Module} (same : (changed.format? path).map Format.enums =
      (module.format? path).map Format.enums) :
    changed.enumAt? wanted path = module.enumAt? wanted path := by
  have enums : ∀ other : Module, other.enumAt? wanted path =
      ((other.format? path).map Format.enums).bind
        fun decls => decls.find? fun decl => Name.short decl.name == wanted := by
    intro other
    rw [Option.bind_map]
    rfl
  rw [enums, enums, same]

variable {reference owner : String}

theorem enumOwner_eq_findSome (module : Module) (path reference : String) :
    module.enumOwner? path reference = (Name.outward path.toList).findSome? fun scope =>
      (module.enumAt? (Name.short reference) scope).map fun decl => (scope, decl) := by
  rw [enumOwner?]
  congr 1
  funext scope
  simp only [enumAt?, Option.bind_eq_bind, Option.map_eq_bind, Option.bind_assoc,
    Function.comp_def, Option.pure_def]

theorem enumOwner_top (module : Module) (reference : String) :
    module.enumOwner? "" reference =
      (module.enumAt? (Name.short reference) "").map fun decl => ("", decl) :=
  enumOwner_root module reference

/-- Below the root, the lookup looks at one path and then from the enclosing one. -/
theorem enumOwner_inside (inside : path ≠ "") :
    module.enumOwner? path reference =
      ((module.enumAt? (Name.short reference) path).map fun decl => (path, decl)).or
        (module.enumOwner? (Name.enclosing path) reference) := by
  rw [enumOwner_eq_findSome, Name.outward_inside inside, List.findSome?_cons,
    ← enumOwner_eq_findSome]
  cases module.enumAt? (Name.short reference) path <;> rfl

theorem enumOwner_of_some (found : module.enumAt? (Name.short reference) path = some decl) :
    module.enumOwner? path reference = some (path, decl) := by
  by_cases top : path = ""
  · subst top
    rw [enumOwner_top, found, Option.map_some]
  · rw [enumOwner_inside top, found, Option.map_some, Option.some_or]

theorem enumOwner_inside_of_none (inside : path ≠ "")
    (nothing : module.enumAt? (Name.short reference) path = none) :
    module.enumOwner? path reference = module.enumOwner? (Name.enclosing path) reference := by
  rw [enumOwner_inside inside, nothing, Option.map_none, Option.none_or]

/-- Counted in steps outward, an enum is the first there is on the way from a path. -/
def IsFirstOutward (module : Module) (wanted path : String) (steps : Nat) (decl : EnumDecl) :
    Prop :=
  module.enumAt? wanted (Name.enclosing^[steps] path) = some decl ∧
    ∀ earlier < steps, module.enumAt? wanted (Name.enclosing^[earlier] path) = none

theorem isFirstOutward_succ {steps : Nat} (nothing : module.enumAt? wanted path = none) :
    module.IsFirstOutward wanted path (steps + 1) decl ↔
      module.IsFirstOutward wanted (Name.enclosing path) steps decl := by
  refine and_congr Iff.rfl ⟨fun before earlier less => before (earlier + 1) (by omega), ?_⟩
  rintro before (_ | earlier) less
  · exact nothing
  · exact before earlier (by omega)

theorem exists_isFirstOutward (found : module.enumOwner? path reference = some (owner, decl)) :
    ∃ steps, Name.enclosing^[steps] path = owner ∧
      module.IsFirstOutward (Name.short reference) path steps decl := by
  induction path using Name.outward_induction with
  | root =>
    cases here : module.enumAt? (Name.short reference) "" with
    | none =>
      rw [enumOwner_top, here] at found
      cases found
    | some decl =>
      rw [enumOwner_of_some here] at found
      cases found
      exact ⟨0, rfl, here, by simp⟩
  | inside path top ih =>
    cases here : module.enumAt? (Name.short reference) path with
    | none =>
      rw [enumOwner_inside_of_none top here] at found
      obtain ⟨steps, reached, first⟩ := ih found
      exact ⟨steps + 1, reached, (isFirstOutward_succ here).mpr first⟩
    | some decl =>
      rw [enumOwner_of_some here] at found
      cases found
      exact ⟨0, rfl, here, by simp⟩

theorem enumOwner_of_isFirstOutward {steps : Nat}
    (first : module.IsFirstOutward (Name.short reference) path steps decl) :
    module.enumOwner? path reference = some (Name.enclosing^[steps] path, decl) := by
  induction steps generalizing path with
  | zero => exact enumOwner_of_some first.1
  | succ steps ih =>
    have nothing := first.2 0 (Nat.succ_pos steps)
    by_cases top : path = ""
    · subst top
      have here := first.1
      rw [Name.enclosing_iterate_root, ← Function.iterate_zero_apply Name.enclosing "", nothing]
        at here
      cases here
    · rw [enumOwner_inside_of_none top nothing]
      exact ih ((isFirstOutward_succ nothing).mp first)

/-- The lookup finds the first enum on the way to the root. -/
theorem enumOwner_eq_some_iff :
    module.enumOwner? path reference = some (owner, decl) ↔
      ∃ steps, Name.enclosing^[steps] path = owner ∧
        module.IsFirstOutward (Name.short reference) path steps decl := by
  refine ⟨exists_isFirstOutward, ?_⟩
  rintro ⟨steps, rfl, first⟩
  exact enumOwner_of_isFirstOutward first

theorem enumOwner_eq_none_iff :
    module.enumOwner? path reference = none ↔
      ∀ steps, module.enumAt? (Name.short reference) (Name.enclosing^[steps] path) = none := by
  constructor
  · intro lost
    by_contra present
    push Not at present
    obtain ⟨decl, found⟩ := Option.ne_none_iff_exists'.mp (Nat.find_spec present)
    rw [enumOwner_of_isFirstOutward ⟨found, fun _ less => not_not.mp (Nat.find_min present less)⟩]
      at lost
    cases lost
  · intro nothing
    rw [Option.eq_none_iff_forall_ne_some]
    rintro ⟨owner, decl⟩ found
    obtain ⟨steps, -, here, -⟩ := exists_isFirstOutward found
    rw [nothing steps] at here
    cases here

/-- The lookup of an enum from a path, whether there is a scope at it or not. The way outward comes
to the root. What is found is at the first path on it that is a scope with an enum of the wanted
short name, and is the first such enum there; if there is no such path, nothing is found. Modules
that have the same enums on the way give the same answer, whatever they have elsewhere. -/
theorem enumOwner_lexical (module : Module) (path reference : String) :
    (∃ steps ≤ path.length, Name.enclosing^[steps] path = "") ∧
    (∀ owner decl, module.enumOwner? path reference = some (owner, decl) ↔
      ∃ steps, Name.enclosing^[steps] path = owner ∧
        module.IsEnumAt (Name.short reference) owner decl ∧
        ∀ earlier < steps,
          ¬ module.HasEnum (Name.short reference) (Name.enclosing^[earlier] path)) ∧
    (module.enumOwner? path reference = none ↔
      ∀ steps, ¬ module.HasEnum (Name.short reference) (Name.enclosing^[steps] path)) ∧
    ∀ changed : Module,
      (∀ steps, (changed.format? (Name.enclosing^[steps] path)).map Format.enums =
        (module.format? (Name.enclosing^[steps] path)).map Format.enums) →
      changed.enumOwner? path reference = module.enumOwner? path reference := by
  refine ⟨Name.exists_iterate_root path, ?_, ?_, ?_⟩
  · intro owner decl
    simp only [enumOwner_eq_some_iff, IsFirstOutward, enumAt_eq_none_iff, enumAt_eq_some_iff]
    constructor
    · rintro ⟨steps, rfl, first⟩
      exact ⟨steps, rfl, first⟩
    · rintro ⟨steps, rfl, first⟩
      exact ⟨steps, rfl, first⟩
  · simp only [enumOwner_eq_none_iff, enumAt_eq_none_iff]
  · intro changed same
    have alike : ∀ steps, changed.enumAt? (Name.short reference) (Name.enclosing^[steps] path) =
        module.enumAt? (Name.short reference) (Name.enclosing^[steps] path) :=
      fun steps => enumAt_congr (same steps)
    ext ⟨owner, decl⟩
    simp only [enumOwner_eq_some_iff, IsFirstOutward, alike]

/-- The start is no scope, the scope around it has no enum of the name, and one beside it has. -/
theorem enumOwner_lexical_sibling :
    let kind : EnumDecl := ⟨"kind", [⟨0, "none"⟩]⟩
    let root : Format := { name := "top", order := .little, enums := [kind] }
    let outer : Format := { name := "outer", order := .little, enums := [⟨"mode", [⟨1, "on"⟩]⟩] }
    let other : Format := { name := "other", order := .little, enums := [⟨"kind", [⟨7, "x"⟩]⟩] }
    let module : Module := { root, nested := [("outer", outer)] }
    let changed : Module := { root, nested := [("outer", outer), ("outer::other", other)] }
    module.enumOwner? "outer::inner" "top::kind" = some ("", kind) ∧
      changed.enumOwner? "outer::inner" "top::kind" = some ("", kind) := by
  intro kind root outer other module changed
  have top : ∀ steps, Name.enclosing^[steps + 2] "outer::inner" = "" := by
    intro steps
    rw [Function.iterate_add_apply]
    exact Name.enclosing_iterate_root steps
  have found : module.enumOwner? "outer::inner" "top::kind" = some ("", kind) := by
    refine ((enumOwner_lexical module _ _).2.1 "" kind).mpr ⟨2, top 0, ?_, ?_⟩
    · exact ⟨root, [], [], rfl, rfl, by decide, by simp⟩
    · rintro (_ | _ | earlier) less ⟨format, scope, decl, member, same⟩
      · cases scope
      · cases scope
        cases List.mem_singleton.mp member
        exact absurd same (by decide)
      · omega
  refine ⟨found, ((enumOwner_lexical module _ _).2.2.2 changed ?_).trans found⟩
  rintro (_ | _ | steps)
  · rfl
  · rfl
  · rw [top]
    rfl

end Module

end FormatCompiler
