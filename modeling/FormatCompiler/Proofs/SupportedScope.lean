import Mathlib.Data.Option.Basic
import FormatCompiler.Module.Subset

/-!
The formats that the targets support, said without the order in which a module is checked. An
expression is supported over the names it may use, a field in its scope, an instance behind the
instances before it. The check finds nothing exactly in the modules whose scopes are all supported.
-/

namespace FormatCompiler

set_option autoImplicit false

/-- Literals, names that are known or mean the item just read, and operators that every target
has. -/
def Expr.IsSupported (known : String → Prop) : Expr → Prop
  | .int _ => True
  | .bool _ => True
  | .name id => id = Subset.currentItem ∨ known id
  | .unary (.sign symbol) operand => symbol ∈ Subset.unaryOperators ∧ operand.IsSupported known
  | .unary (.cast _) operand => operand.IsSupported known
  | .unary (.field _) operand => operand.IsSupported known
  | .binary symbol lhs rhs =>
    symbol ∈ Subset.binaryOperators ∧ lhs.IsSupported known ∧ rhs.IsSupported known

theorem Expr.IsSupported.mono {known more : String → Prop} (wider : ∀ id, known id → more id)
    {expr : Expr} (supported : expr.IsSupported known) : expr.IsSupported more := by
  induction expr with
  | int value => trivial
  | bool value => trivial
  | name id => exact supported.imp_right (wider id)
  | unary op operand ih =>
    cases op with
    | sign symbol => exact ⟨supported.1, ih supported.2⟩
    | cast type => exact ih supported
    | field name => exact ih supported
  | binary op lhs rhs left right => exact ⟨supported.1, left supported.2.1, right supported.2.2⟩

/-- What a field may ask for. A structure is read by its own reader and takes nothing from the
field; a primitive has to be one that the field's encoding, change and enum go with. -/
structure Field.IsSupported (scope : Scope) (field : Field) : Prop where
  plain : (scope.fieldStructure? field).isSome →
    field.encoding = none ∧ field.transform = none ∧ field.enumName = none
  cases : scope.fieldStructure? field = none →
    ∀ case ∈ field.cases, ∃ type, scope.primitive? case.type = some type
  stored : scope.fieldStructure? field = none → ∃ type, scope.fieldPrimitive? field = some type ∧
    (field.encoding.isSome → type = .str) ∧
    (field.transform.isSome → type = .bytes ∧ field.switchOn = none) ∧
    ∀ name, field.enumName = some name → (scope.enumOwner? name).isSome ∧ type.isInteger = true

/-- The expressions of an instance. -/
def InstanceBody.exprs : InstanceBody → List Expr
  | .value expr => [expr]
  | .parse rule => rule.position.toList ++ rule.size.toList

structure InstanceBody.IsSupported (scope : Scope) (known : String → Prop) (body : InstanceBody) :
    Prop where
  exprs : ∀ expr ∈ body.exprs, expr.IsSupported known
  plain : ∀ rule, body = .parse rule → (scope.structure? rule.type).isSome → rule.encoding = none

structure Scope.IsSupported (scope : Scope) : Prop where
  fields : ∀ field ∈ scope.format.fields, field.IsSupported scope
  fieldExprs : ∀ field ∈ scope.format.fields, ∀ expr ∈ Subset.fieldExprs field,
    expr.IsSupported (· ∈ Subset.members scope.format)
  /-- An instance uses the fields and the instances before it. -/
  instances : ∀ front inst back, scope.format.instances = front ++ inst :: back →
    inst.body.IsSupported scope
      (· ∈ scope.format.fields.map Field.id ++ front.map Instance.id)
  targets : ∀ validation ∈ scope.format.validations,
    validation.target ∈ Subset.members scope.format
  conditions : ∀ validation ∈ scope.format.validations,
    validation.condition.IsSupported (· ∈ Subset.members scope.format)

namespace Subset

theorem reject_eq_none {broken : Bool} {cause : Unsupported} :
    reject broken cause = none ↔ broken = false := by
  cases broken <;> simp [reject]

theorem rejectExpr_eq_none_iff (known : List String) (expr : Expr) :
    rejectExpr known expr = none ↔ expr.IsSupported (· ∈ known) := by
  unfold rejectExpr
  rw [List.findSome?_eq_none_iff]
  induction expr with
  | int value => simp [Expr.nodes, rejectNode, Expr.IsSupported]
  | bool value => simp [Expr.nodes, rejectNode, Expr.IsSupported]
  | name id =>
    simp only [Expr.nodes, List.forall_mem_singleton, rejectNode, reject_eq_none,
      Expr.IsSupported]
    by_cases item : id = currentItem <;> simp [item]
  | unary op operand ih =>
    rw [Expr.nodes, List.forall_mem_cons, ih]
    cases op <;> simp [rejectNode, reject_eq_none, Expr.IsSupported]
  | binary op lhs rhs left right =>
    rw [Expr.nodes, List.forall_mem_cons, List.forall_mem_append, left, right]
    simp [rejectNode, reject_eq_none, Expr.IsSupported]

theorem findSome_rejectExpr_eq_none_iff (known : List String) (exprs : List Expr) :
    exprs.findSome? (rejectExpr known) = none ↔
      ∀ expr ∈ exprs, expr.IsSupported (· ∈ known) := by
  simp only [List.findSome?_eq_none_iff, rejectExpr_eq_none_iff]

theorem rejectField_eq_none_iff (scope : Scope) (field : Field) :
    rejectField scope field = none ↔ field.IsSupported scope := by
  unfold rejectField
  cases found : scope.fieldStructure? field with
  | some type =>
    rw [Option.isSome_some, if_pos rfl, reject_eq_none]
    constructor
    · intro bare
      refine ⟨fun _ => by simpa [and_assoc] using bare, ?_, ?_⟩
      · rw [found]
        nofun
      · rw [found]
        nofun
    · intro supported
      obtain ⟨encoding, transform, enumName⟩ := supported.plain (by rw [found]; rfl)
      simp [encoding, transform, enumName]
  | none =>
    have cases : (field.cases.any fun case => (scope.primitive? case.type).isNone) = false ↔
        ∀ case ∈ field.cases, ∃ type, scope.primitive? case.type = some type := by
      simp [Option.ne_none_iff_exists']
    rw [if_neg (by simp), Option.orElse_eq_none, reject_eq_none, cases]
    cases stored : scope.fieldPrimitive? field with
    | none =>
      refine iff_of_false (by simp) ?_
      intro supported
      obtain ⟨type, primitive, -⟩ := supported.stored found
      rw [stored] at primitive
      cases primitive
    | some type =>
      simp only [Option.orElse_eq_none, reject_eq_none]
      constructor
      · rintro ⟨primitives, encoded, changed, tagged⟩
        refine ⟨by simp [found], fun _ => primitives, fun _ => ⟨type, stored, ?_, ?_, ?_⟩⟩
        · simpa using encoded
        · simpa using changed
        · intro name enumName
          rw [enumName] at tagged
          simpa [reject_eq_none, Option.isSome_iff_ne_none] using tagged
      · intro supported
        obtain ⟨other, primitive, encoded, changed, tagged⟩ := supported.stored found
        rw [stored] at primitive
        cases primitive
        refine ⟨supported.cases found, by simpa using encoded, by simpa using changed, ?_⟩
        split
        · rfl
        · next name enumName =>
          simpa [reject_eq_none, Option.isSome_iff_ne_none] using tagged name enumName

theorem rejectBody_eq_none_iff (scope : Scope) (known : List String) (body : InstanceBody) :
    rejectBody scope known body = none ↔ body.IsSupported scope (· ∈ known) := by
  cases body with
  | value expr =>
    rw [rejectBody, rejectExpr_eq_none_iff]
    constructor
    · intro supported
      refine ⟨List.forall_mem_singleton.mpr supported, ?_⟩
      rintro _ ⟨⟩
    · exact fun supported => List.forall_mem_singleton.mp supported.exprs
  | parse rule =>
    have plain : ((scope.structure? rule.type).isSome && rule.encoding.isSome) = false ↔
        ((scope.structure? rule.type).isSome → rule.encoding = none) := by
      cases scope.structure? rule.type <;> cases rule.encoding <;> simp
    rw [rejectBody, Option.orElse_eq_none, reject_eq_none, plain, findSome_rejectExpr_eq_none_iff]
    constructor
    · rintro ⟨bare, exprs⟩
      refine ⟨exprs, ?_⟩
      rintro _ ⟨rfl⟩
      exact bare
    · exact fun supported => ⟨supported.plain rule rfl, supported.exprs⟩

theorem rejectInstances_eq_none_iff (scope : Scope) (known : List String)
    (instances : List Instance) :
    rejectInstances scope known instances = none ↔
      ∀ front inst back, instances = front ++ inst :: back →
        inst.body.IsSupported scope (· ∈ (front.map Instance.id).reverse ++ known) := by
  induction instances generalizing known with
  | nil => simp [rejectInstances]
  | cons first rest ih =>
    rw [rejectInstances, Option.orElse_eq_none, rejectBody_eq_none_iff, ih]
    constructor
    · rintro ⟨here, later⟩ front inst back shape
      cases front with
      | nil =>
        obtain ⟨rfl, rfl⟩ := List.cons.inj shape
        exact here
      | cons other front =>
        obtain ⟨rfl, tail⟩ := List.cons.inj shape
        simpa using later front inst back tail
    · intro all
      refine ⟨all [] first rest rfl, ?_⟩
      intro front inst back shape
      simpa using all (first :: front) inst back (by rw [shape, List.cons_append])

theorem rejectScope_eq_none_iff (scope : Scope) :
    rejectScope scope = none ↔ scope.IsSupported := by
  have order : ∀ front : List Instance,
      (fun id => id ∈ (front.map Instance.id).reverse ++ scope.format.fields.map Field.id) =
        fun id => id ∈ scope.format.fields.map Field.id ++ front.map Instance.id := by
    intro front
    funext id
    rw [List.mem_append, List.mem_append, List.mem_reverse, or_comm]
  simp only [rejectScope, rejectValidation, Option.orElse_eq_none, List.findSome?_eq_none_iff,
    rejectField_eq_none_iff, rejectInstances_eq_none_iff, reject_eq_none, rejectExpr_eq_none_iff,
    order]
  constructor
  · rintro ⟨fields, instances, validations, exprs⟩
    refine ⟨fields, exprs, instances, ?_, fun validation member => (validations _ member).2⟩
    intro validation member
    simpa using (validations _ member).1
  · intro supported
    refine ⟨supported.fields, supported.instances, ?_, supported.fieldExprs⟩
    intro validation member
    exact ⟨by simpa using supported.targets _ member, supported.conditions _ member⟩

end Subset

/-- The check of a module finds nothing exactly when every scope is supported. -/
theorem Module.unsupported_eq_none_iff (module : Module) :
    module.unsupported? = none ↔ ∀ scope ∈ module.scopes, scope.IsSupported := by
  simp only [Module.unsupported?, List.findSome?_eq_none_iff, Subset.rejectScope_eq_none_iff]

end FormatCompiler
