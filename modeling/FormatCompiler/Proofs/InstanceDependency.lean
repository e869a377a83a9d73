import Mathlib.Data.Fintype.Card
import Mathlib.Data.List.Basic
import Mathlib.Data.Set.Finite.List
import Mathlib.Logic.Relation
import FormatCompiler.Proofs.SupportedScope

/-!
Instances that need each other. The first use of an instance evaluates its expressions, and with
them every instance they mention. The check lets an instance use what stands before it, so an
instance could need itself only through a name that is taken twice. No rule forbids such names.
-/

namespace FormatCompiler

set_option autoImplicit false

open Relation (TransGen)

/-- A supported expression mentions known names and the item just read. -/
theorem Expr.IsSupported.mentions {known : String → Prop} {expr : Expr}
    (supported : expr.IsSupported known) {id : String} (mentioned : .name id ∈ expr.nodes) :
    id = Subset.currentItem ∨ known id := by
  induction expr with
  | int value => simp [nodes] at mentioned
  | bool value => simp [nodes] at mentioned
  | name other =>
    obtain rfl : id = other := by simpa [nodes] using mentioned
    exact supported
  | unary op operand ih =>
    have inside : .name id ∈ operand.nodes := by simpa [nodes] using mentioned
    cases op with
    | sign symbol => exact ih supported.2 inside
    | cast type => exact ih supported inside
    | field name => exact ih supported inside
  | binary op lhs rhs left right =>
    have inside : .name id ∈ lhs.nodes ∨ .name id ∈ rhs.nodes := by simpa [nodes] using mentioned
    rcases inside with inLeft | inRight
    · exact left supported.2.1 inLeft
    · exact right supported.2.2 inRight

namespace Format

/-- The names of the instances, in their order. -/
def instanceIds (format : Format) : List String :=
  format.instances.map Instance.id

/-- An instance of the first name mentions the second one, and that is the name of an instance. -/
def DependsOn (format : Format) (id other : String) : Prop :=
  (∃ inst ∈ format.instances, inst.id = id ∧ ∃ expr ∈ inst.body.exprs, .name other ∈ expr.nodes) ∧
    other ∈ format.instanceIds

/-- No instance needs itself, directly or through others. -/
def InstancesAcyclic (format : Format) : Prop :=
  ∀ id, ¬ TransGen format.DependsOn id id

/-- A name means something else than one instance: the item just read, a field, or a second
instance. -/
def Clashes (format : Format) (id : String) : Prop :=
  id = Subset.currentItem ∨ id ∈ format.fields.map Field.id ∨ 1 < format.instanceIds.count id

instance (format : Format) (id : String) : Decidable (format.Clashes id) :=
  inferInstanceAs (Decidable (_ ∨ _ ∨ _))

variable {format : Format}

/-- Evaluating an instance with all that it needs comes to an end exactly when none needs itself:
there are finitely many. -/
theorem instancesAcyclic_iff_wellFounded :
    format.InstancesAcyclic ↔ WellFounded fun other id => format.DependsOn id other := by
  constructor
  · intro acyclic
    let Needs (other id : {id // id ∈ format.instanceIds}) : Prop :=
      TransGen format.DependsOn id other
    have finite : Finite {id // id ∈ format.instanceIds} := format.instanceIds.finite_toSet
    have transitive : IsTrans _ Needs := ⟨fun _ _ _ first second => second.trans first⟩
    have irreflexive : Std.Irrefl Needs := ⟨fun id cycle => acyclic id cycle⟩
    have accessible : ∀ id : {id // id ∈ format.instanceIds},
        Acc (fun other id => format.DependsOn id other) id.val := by
      intro id
      induction id using (Finite.wellFounded_of_trans_of_irrefl Needs).induction with
      | _ id ih => exact ⟨_, fun other needed => ih ⟨other, needed.2⟩ (.single needed)⟩
    exact ⟨fun id => ⟨id, fun other needed => accessible ⟨other, needed.2⟩⟩⟩
  · intro ends id cycle
    exact ends.transGen.irrefl.irrefl id (Relation.transGen_swap.mpr cycle)

/-- What a supported instance needs stands before it, or goes by a name that clashes. -/
theorem exists_before_of_dependsOn {scope : Scope} (supported : scope.IsSupported)
    {id other : String} (needed : scope.format.DependsOn id other) :
    scope.format.Clashes other ∨ ∃ front back, scope.format.instanceIds = front ++ id :: back ∧
      other ∈ front := by
  obtain ⟨⟨inst, member, rfl, expr, used, mentioned⟩, -⟩ := needed
  obtain ⟨front, back, shape⟩ := List.append_of_mem member
  have body := supported.instances front inst back shape
  rcases (body.exprs expr used).mentions mentioned with item | before
  · exact Or.inl (Or.inl item)
  · rcases List.mem_append.mp before with ofField | ofInstance
    · exact Or.inl (Or.inr (Or.inl ofField))
    · refine Or.inr ⟨front.map Instance.id, back.map Instance.id, ?_, ofInstance⟩
      rw [instanceIds, shape, List.map_append, List.map_cons]

/-- Between names that do not clash, what is needed has the smaller position. -/
theorem idxOf_lt_of_dependsOn {scope : Scope} (supported : scope.IsSupported) {id other : String}
    (single : ¬ scope.format.Clashes id) (otherSingle : ¬ scope.format.Clashes other)
    (needed : scope.format.DependsOn id other) :
    scope.format.instanceIds.idxOf other < scope.format.instanceIds.idxOf id := by
  rcases exists_before_of_dependsOn supported needed with clashes | ⟨front, back, shape, before⟩
  · exact absurd clashes otherSingle
  · have once : scope.format.instanceIds.count id ≤ 1 := by
      by_contra more
      exact single (Or.inr (Or.inr (Nat.lt_of_not_le more)))
    have fresh : id ∉ front := by
      intro again
      have counted := List.count_pos_iff.mpr again
      rw [shape, List.count_append, List.count_cons_self] at once
      omega
    rw [shape, List.idxOf_append_of_mem before, List.idxOf_append_of_notMem fresh,
      List.idxOf_cons_self]
    have inFront := List.idxOf_lt_length_of_mem before
    omega

/-- Every cycle passes through a name that clashes. Without one, positions would only go down. -/
theorem instancesAcyclic_iff_clashes {scope : Scope} (supported : scope.IsSupported) :
    scope.format.InstancesAcyclic ↔
      ∀ id, scope.format.Clashes id → ¬ TransGen scope.format.DependsOn id id := by
  constructor
  · exact fun acyclic id _ => acyclic id
  · intro clashing id cycle
    -- a name on the cycle leads back to itself, so it is none of those that clash
    have single : ∀ other, TransGen scope.format.DependsOn other other →
        ¬ scope.format.Clashes other :=
      fun other around clashes => clashing other clashes around
    have lower : ∀ other, TransGen scope.format.DependsOn id other →
        TransGen scope.format.DependsOn other id →
        scope.format.instanceIds.idxOf other < scope.format.instanceIds.idxOf id := by
      intro other there
      induction there with
      | single needed =>
        intro back
        exact idxOf_lt_of_dependsOn supported (single id cycle)
          (single _ (back.trans (.single needed))) needed
      | @tail middle other there needed ih =>
        intro back
        have middleBack : TransGen scope.format.DependsOn middle id := .head needed back
        have down := idxOf_lt_of_dependsOn supported (single middle (middleBack.trans there))
          (single other ((back.trans there).trans (.single needed))) needed
        exact down.trans (ih middleBack)
    exact absurd (lower id cycle cycle) (Nat.lt_irrefl _)

end Format

namespace Module

/-- In every scope of a supported module, an instance can need itself only through a name that
clashes: no instance does exactly when none whose name is that of the item just read, of a field or
of another instance does. So no instance needs itself where the names of the instances are their
own. Evaluation ends exactly when no instance needs itself. -/
theorem instances_acyclic_iff {module : Module} (supported : module.unsupported? = none) :
    ∀ scope ∈ module.scopes,
      (scope.format.InstancesAcyclic ↔
        WellFounded fun other id => scope.format.DependsOn id other) ∧
      (scope.format.InstancesAcyclic ↔
        ∀ id, scope.format.Clashes id → ¬ TransGen scope.format.DependsOn id id) ∧
      ((∀ inst ∈ scope.format.instances, ¬ scope.format.Clashes inst.id) →
        scope.format.InstancesAcyclic) := by
  intro scope listed
  have own := (unsupported_eq_none_iff module).mp supported scope listed
  have onClashes := Format.instancesAcyclic_iff_clashes own
  refine ⟨Format.instancesAcyclic_iff_wellFounded, onClashes, ?_⟩
  intro apart
  refine onClashes.mpr fun id clashes cycle => ?_
  obtain ⟨other, ⟨⟨inst, member, rfl, -⟩, -⟩, -⟩ := Relation.TransGen.head'_iff.mp cycle
  exact apart inst member clashes

/-- Three instances, each of which uses the one before it, one of them read and not computed. -/
theorem instances_acyclic_iff_chain :
    let root : Format :=
      { name := "top", order := .little, fields := [{ id := "a", type := .primitive .u1 }],
        instances :=
          [⟨"first", .value (.binary "+" (.name "a") (.int 1))⟩,
            ⟨"second", .parse { type := .primitive .u2, position := some (.name "first") }⟩,
            ⟨"third", .value (.binary "*" (.name "second") (.name "first"))⟩] }
    let module : Module := { root, nested := [] }
    module.unsupported? = none ∧ module.rootScope.format.DependsOn "third" "second" ∧
      WellFounded fun other id => module.rootScope.format.DependsOn id other := by
  intro root module
  have supported : module.unsupported? = none := by decide
  have needed : module.rootScope.format.DependsOn "third" "second" := by
    refine ⟨⟨⟨"third", .value (.binary "*" (.name "second") (.name "first"))⟩, by decide, rfl,
      _, List.mem_singleton_self _, by decide⟩, by decide⟩
  have result := instances_acyclic_iff supported module.rootScope List.mem_cons_self
  exact ⟨supported, needed, result.1.mp (result.2.2 (by decide))⟩

/-- An instance called like a field, one called like another instance and one called like the item
just read each mention their own names. The format keeps all the rules and is supported. -/
theorem instances_cyclic :
    let root : Format :=
      { name := "top", order := .little, fields := [{ id := "x", type := .primitive .u1 }],
        instances :=
          [⟨"x", .value (.name "x")⟩, ⟨"y", .value (.int 1)⟩, ⟨"y", .value (.name "y")⟩,
            ⟨"_", .value (.name "_")⟩] }
    root.violation? = none ∧ ∃ module, ofFormat root = .ok module ∧ module.unsupported? = none ∧
      root.DependsOn "x" "x" ∧ root.DependsOn "y" "y" ∧ root.DependsOn "_" "_" ∧
      ¬ module.rootScope.format.InstancesAcyclic := by
  intro root
  have itself : ∀ id, ⟨id, .value (.name id)⟩ ∈ root.instances → root.DependsOn id id := by
    intro id member
    exact ⟨⟨_, member, rfl, _, List.mem_singleton_self _, List.mem_singleton_self _⟩,
      List.mem_map_of_mem (f := Instance.id) member⟩
  have first := itself "x" (by decide)
  refine ⟨by decide, { root, nested := [] }, rfl, by decide, first, itself "y" (by decide),
    itself "_" (by decide), fun acyclic => acyclic "x" (.single first)⟩

end Module

end FormatCompiler
