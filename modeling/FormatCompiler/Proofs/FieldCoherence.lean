import FormatCompiler.Compilation.Emission
import FormatCompiler.Proofs.ScopeEmission

/-!
Fields whose parts go together: a repetition has the expression that governs it, a switch has cases
and at most one of them is the fallback. The rules of formats say so of the root only. In the scopes
nested in it just those fields are coherent that were so in the format a type carries, and each
target makes up its own meaning of a repetition without its expression.
-/

namespace FormatCompiler

set_option autoImplicit false

/-- The parts of a field go together. -/
structure Field.Coherent (field : Field) : Prop where
  repeated : field.repeatExpr.isSome ↔ field.repetition = .times ∨ field.repetition = .stopWhen
  switched : field.cases ≠ [] ↔ field.switchOn.isSome
  oneFallback : field.cases.countP (·.value.isNone) ≤ 1

structure Format.Coherent (format : Format) : Prop where
  fields : ∀ field ∈ format.fields, field.Coherent
  enums : ∀ decl ∈ format.enums, decl.values ≠ []

/-- A repetition is to be governed by an expression that is not there. -/
def Field.Ungoverned (field : Field) : Prop :=
  (field.repetition = .times ∨ field.repetition = .stopWhen) ∧ field.repeatExpr = none

theorem Field.Coherent.governed {field : Field} (coherent : field.Coherent) :
    ¬ field.Ungoverned := by
  rintro ⟨repetition, missing⟩
  have present := coherent.repeated.mpr repetition
  rw [missing] at present
  cases present

theorem Format.coherent_of_valid {format : Format} (valid : format.violation? = none) :
    format.Coherent where
  fields field member := by
    have formed := fields_of_valid valid field member
    exact ⟨formed.repeated, formed.switched, formed.oneFallback⟩
  enums decl member := (enums_of_valid valid decl member).inhabited

namespace Module

section

variable {root : Format} {module : Module}

theorem format_of_scope {path : String} {scope : Scope} (found : module.scope? path = some scope) :
    module.format? path = some scope.format := by
  obtain ⟨format, stored, shape⟩ := Option.bind_eq_some_iff.mp found
  split at shape
  · next root =>
    cases shape
    rw [format?, if_pos root]
    rfl
  · cases shape
    exact stored

/-- What holds of the root holds of all scopes exactly when it holds of every format that is carried
by a type and stored as a scope. -/
theorem forall_scope_iff (built : ofFormat root = .ok module) {holds : Format → Prop}
    (own : holds root) :
    (∀ scope ∈ module.scopes, holds scope.format) ↔
      ∀ decl ∈ root.carriers, ∀ format, decl.carried? = some format →
        module.format? (pathOf root decl.name) = some format → holds format := by
  have same : module.root = root := (ofFormat_eq_ok.mp built).1
  constructor
  · intro all decl member format carried stored
    have listed : pathOf root decl.name ∈ module.paths :=
      (mem_paths_iff built _).mpr ⟨decl, member, rfl⟩
    obtain ⟨scope, found⟩ := scope_of_mem_paths listed
    have here := all scope (List.mem_cons_of_mem _ (List.mem_filterMap.mpr ⟨_, listed, found⟩))
    rw [format_of_scope found, Option.some.injEq] at stored
    rwa [stored] at here
  · intro all scope member
    rcases List.mem_cons.mp member with rfl | nested
    · rw [← same] at own
      exact own
    · obtain ⟨path, -, found⟩ := List.mem_filterMap.mp nested
      have stored := format_of_scope found
      by_cases top : path.isEmpty
      · rw [format?, if_pos top, same, Option.some.injEq] at stored
        rwa [← stored]
      · have entry := stored
        rw [format?, if_neg top] at entry
        obtain ⟨decl, listed, rfl, carried⟩ := carrier_of_lookup built entry
        exact all decl listed scope.format carried stored

end

end Module

namespace Target

/-- The reads of a field in the language of a target. -/
def fieldBody : Target → Scope → Field → Template
  | .cppStl => CppStl.fieldBody
  | .python => Python.fieldBody
  | .ruby => Ruby.fieldBody
  | .lua => Lua.fieldBody
  | .wiresharkLua => Lua.fieldBody

/-- What a target takes a field for whose repetition lacks its expression. One reads to the end of
the stream; for the others a count is zero, and a condition to stop holds at once. -/
def madeUp (target : Target) (field : Field) : Field :=
  match target with
  | .cppStl => { field with repetition := .toEnd }
  | _ =>
    { field with
      repeatExpr := some (if field.repetition = .times then .int 0 else .bool true) }

theorem spell_zero (spelling : Spelling) : (Expr.int 0).spell spelling = "0" := by
  change String.join [Text.showInt64 0] = "0"
  decide

theorem spell_true (spelling : Spelling) :
    (Expr.bool true).spell spelling = spelling.truth true := by
  change String.join [spelling.truth true] = spelling.truth true
  rw [String.join_cons, String.join_nil, String.append_empty]

theorem fieldBody_of_ungoverned (target : Target) (scope : Scope) {field : Field}
    (ungoverned : field.Ungoverned) :
    target.fieldBody scope field = target.fieldBody scope (target.madeUp field) := by
  obtain ⟨governed, missing⟩ := ungoverned
  -- what is read each time does not depend on how often, so it is the same by definition
  cases target with
  | cppStl =>
    rcases governed with times | stopWhen
    · simp only [fieldBody, madeUp, CppStl.fieldBody, times, missing]
      rfl
    · simp only [fieldBody, madeUp, CppStl.fieldBody, stopWhen, missing]
      rfl
  | python =>
    rcases governed with times | stopWhen
    · simp only [fieldBody, madeUp, Python.fieldBody, times, missing, ↓reduceIte,
        Dialect.exprOr, Dialect.expr, spell_zero]
      rfl
    · simp only [fieldBody, madeUp, Python.fieldBody, stopWhen, missing, reduceCtorEq, ↓reduceIte,
        Dialect.exprOr, Dialect.expr, spell_true]
      rfl
  | ruby =>
    rcases governed with times | stopWhen
    · simp only [fieldBody, madeUp, Ruby.fieldBody, times, missing, ↓reduceIte,
        Dialect.exprOr, Dialect.expr, spell_zero]
      rfl
    · simp only [fieldBody, madeUp, Ruby.fieldBody, stopWhen, missing, reduceCtorEq, ↓reduceIte,
        Dialect.exprOr, Dialect.expr, spell_true]
      rfl
  | lua | wiresharkLua =>
    rcases governed with times | stopWhen
    · simp only [fieldBody, madeUp, Lua.fieldBody, times, missing, ↓reduceIte,
        Dialect.exprOr, Dialect.expr, spell_zero]
      rfl
    · simp only [fieldBody, madeUp, Lua.fieldBody, Lua.stopCondition, stopWhen, missing,
        reduceCtorEq, ↓reduceIte, spell_true]
      rfl

end Target

namespace Module

/-- The root is coherent since it keeps the rules, and all scopes are exactly when every format is
that a type carries and that is stored as a scope. No repetition lacks its expression under the same
condition on these formats. One that does is read by each target as a field that it makes up. -/
theorem coherent_everywhere_iff {root : Format} {module : Module} (valid : root.violation? = none)
    (built : ofFormat root = .ok module) :
    root.Coherent ∧
    ((∀ scope ∈ module.scopes, scope.format.Coherent) ↔
      ∀ decl ∈ root.carriers, ∀ format, decl.carried? = some format →
        module.format? (pathOf root decl.name) = some format → format.Coherent) ∧
    ((∀ scope ∈ module.scopes, ∀ field ∈ scope.format.fields, ¬ field.Ungoverned) ↔
      ∀ decl ∈ root.carriers, ∀ format, decl.carried? = some format →
        module.format? (pathOf root decl.name) = some format →
          ∀ field ∈ format.fields, ¬ field.Ungoverned) ∧
    ∀ scope ∈ module.scopes, ∀ field ∈ scope.format.fields, field.Ungoverned →
      ∀ target : Target,
        target.fieldBody scope field = target.fieldBody scope (target.madeUp field) := by
  have own := Format.coherent_of_valid valid
  have governed : ∀ field ∈ root.fields, ¬ field.Ungoverned :=
    fun field member => (own.fields field member).governed
  refine ⟨own, forall_scope_iff built own,
    @forall_scope_iff root module built (fun format => ∀ field ∈ format.fields, ¬ field.Ungoverned)
      governed, ?_⟩
  intro scope _ field _ ungoverned target
  exact target.fieldBody_of_ungoverned scope ungoverned

/-- A nested scope with a counted repetition, one that stops, and a switch. -/
theorem coherent_everywhere_iff_governed :
    let inner : Format :=
      { name := "inner", order := .big, enums := [⟨"kind", [⟨1, "one"⟩]⟩],
        fields :=
          [{ id := "tag", type := .primitive .u1, enumName := some "kind" },
            { id := "pairs", type := .primitive .u2, repetition := .times,
              repeatExpr := some (.name "tag") },
            { id := "text", type := .primitive .u1, repetition := .stopWhen,
              repeatExpr := some (.binary "==" (.name "_") (.int 0)) },
            { id := "body", type := .primitive .u1, switchOn := some (.name "tag"),
              cases := [⟨some (.int 1), .primitive .u4⟩, ⟨none, .primitive .u2⟩] }] }
    let root : Format :=
      { name := "top", order := .little, types := [⟨"top::in", .embed inner⟩],
        fields := [{ id := "x", type := .named "top::in" }] }
    root.violation? = none ∧ ∃ module, ofFormat root = .ok module ∧
      module.format? "in" = some inner ∧ ∀ scope ∈ module.scopes, scope.format.Coherent := by
  intro inner root
  have listable : inner.IsListable := ⟨by decide, by decide⟩
  have valid : root.violation? = none := by
    refine Format.violation_of_embeds (by decide) (by decide) ?_ ?_
    · exact List.forall_mem_singleton.mpr ⟨by decide, inner, rfl⟩
    · exact List.forall_mem_singleton.mpr ⟨"x", by decide, _, List.mem_singleton_self _, rfl⟩
  have path : pathOf root "top::in" = "in" := by
    change (Name.relativeTo "top" "top::in").getD "top::in" = "in"
    decide
  have built : ofFormat root = .ok { root, nested := [("in", inner)] } := by
    refine ofFormat_eq_ok.mpr ⟨rfl, ?_⟩
    rw [addScopes_embed _ _ _ listable, path]
    rfl
  have coherent : inner.Coherent := by
    refine ⟨?_, by simp [inner]⟩
    simp only [inner, List.forall_mem_cons]
    refine ⟨⟨?_, ?_, ?_⟩, ⟨?_, ?_, ?_⟩, ⟨?_, ?_, ?_⟩, ⟨?_, ?_, ?_⟩, List.forall_mem_nil _⟩
    all_goals decide
  refine ⟨valid, _, built, rfl, (coherent_everywhere_iff valid built).2.1.mpr ?_⟩
  intro decl member format carried _
  obtain rfl := List.mem_singleton.mp (List.mem_of_mem_filter member)
  rw [TypeDecl.carried_embed _ _ listable, Option.some.injEq] at carried
  rwa [← carried]

/-- A nested scope that is supported and breaks every rule of coherence: the repetitions `a` and `b`
lack their expressions, and the targets read them differently. -/
theorem incoherent_nested :
    let first : Field := { id := "a", type := .primitive .u1, repetition := .times }
    let second : Field := { id := "b", type := .primitive .u1, repetition := .stopWhen }
    let third : Field := { id := "c", type := .primitive .u1, repeatExpr := some (.int 2) }
    let fourth : Field :=
      { id := "d", type := .primitive .u1,
        cases := [⟨none, .primitive .u1⟩, ⟨none, .primitive .u2⟩] }
    let fifth : Field := { id := "e", type := .primitive .u1, switchOn := some (.name "a") }
    let inner : Format :=
      { name := "inner", order := .little, fields := [first, second, third, fourth, fifth],
        enums := [⟨"empty", []⟩] }
    let root : Format := { name := "top", order := .little, types := [⟨"in", .embed inner⟩] }
    root.violation? = none ∧ ∃ module, ofFormat root = .ok module ∧ module.unsupported? = none ∧
      (∃ scope ∈ module.scopes, scope.format = inner ∧
        (∀ field ∈ inner.fields, ¬ field.Coherent) ∧ first.Ungoverned ∧ second.Ungoverned ∧
        Target.CppStl.fieldBody scope first =
          Target.CppStl.fieldBody scope { first with repetition := .toEnd } ∧
        Target.Python.fieldBody scope first =
          Target.Python.fieldBody scope { first with repeatExpr := some (.int 0) }) ∧
      ¬ ∀ scope ∈ module.scopes, scope.format.Coherent := by
  intro first second third fourth fifth inner root
  have listable : inner.IsListable := ⟨by decide, by decide⟩
  have valid : root.violation? = none := by
    refine Format.violation_of_embeds (by decide) (by decide) ?_ (by simp)
    exact List.forall_mem_singleton.mpr ⟨by decide, inner, rfl⟩
  have path : pathOf root "in" = "in" := by
    change (Name.relativeTo "top" "in").getD "in" = "in"
    decide
  have built : ofFormat root = .ok { root, nested := [("in", inner)] } := by
    refine ofFormat_eq_ok.mpr ⟨rfl, ?_⟩
    rw [addScopes_embed _ _ _ listable, path]
    rfl
  have lacking : first.Ungoverned ∧ second.Ungoverned :=
    ⟨⟨Or.inl rfl, rfl⟩, ⟨Or.inr rfl, rfl⟩⟩
  have incoherent : ∀ field ∈ inner.fields, ¬ field.Coherent := by
    simp only [inner, List.forall_mem_cons]
    refine ⟨fun coherent => coherent.governed lacking.1,
      fun coherent => coherent.governed lacking.2, fun coherent => ?_, fun coherent => ?_,
      fun coherent => ?_, List.forall_mem_nil _⟩
    · exact absurd (coherent.repeated.mp rfl) (by decide)
    · exact absurd coherent.oneFallback (by decide)
    · exact absurd rfl (coherent.switched.mpr rfl)
  have nested : "in" ∈ paths { root, nested := [("in", inner)] } := List.mem_singleton_self "in"
  obtain ⟨scope, found⟩ := scope_of_mem_paths nested
  have format : scope.format = inner := (Option.some.inj (format_of_scope found)).symm
  have listed : scope ∈ scopes { root, nested := [("in", inner)] } :=
    List.mem_cons_of_mem _ (List.mem_filterMap.mpr ⟨"in", nested, found⟩)
  refine ⟨valid, _, built, rfl, ⟨scope, listed, format, incoherent, lacking.1, lacking.2,
    Target.cppStl.fieldBody_of_ungoverned scope lacking.1,
    Target.python.fieldBody_of_ungoverned scope lacking.1⟩, fun all => ?_⟩
  have coherent := (all scope listed).fields first
  rw [format] at coherent
  exact (coherent List.mem_cons_self).governed lacking.1

end Module

end FormatCompiler
